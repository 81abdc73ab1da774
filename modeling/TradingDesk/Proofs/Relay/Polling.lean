import Mathlib.Data.List.Chain
import TradingDesk.Relay.Polling

/-! The course of a watch, whatever the fetches bring and whenever it is called off: which fetches
are made and when they begin, what ends it, and at what moment. One round of it keeps a watch
`Underway`; what all rounds come to is its `Course`. -/

namespace TradingDesk.Relay

variable {σ : Type}

/-! ### Fetches in a row -/

/-- What is outside after `n + 1` fetches, one after the other. -/
def outsideAfter (fetch : σ → Fetched σ) (outside : σ) : ℕ → σ
  | 0 => outside
  | n + 1 => (fetch (outsideAfter fetch outside n)).outside

/-- The fetch number `n`, if a watch comes to it. -/
def fetchAt (fetch : σ → Fetched σ) (outside : σ) (n : ℕ) : Fetched σ :=
  fetch (outsideAfter fetch outside n)

def Visit.finish (v : Visit σ) : ℕ := v.time + v.fetched.duration

namespace Progress

/-- What the last fetch of `p` brought. -/
def answer? (p : Progress σ) : Option (Except Error (Option Transaction)) :=
  p.visits.getLast?.map (·.fetched.answer)

/-- When the last fetch of `p` was over. -/
def idleSince (p : Progress σ) : ℕ := (p.visits.getLast?.map Visit.finish).getD 0

/-- When the next fetch after `p` is to begin: the first at once, each other after a `pause`. -/
def due (p : Progress σ) (pause : ℕ) : ℕ := (p.visits.getLast?.map (·.finish + pause)).getD 0

theorem idleSince_le_due (p : Progress σ) (pause : ℕ) : p.idleSince ≤ p.due pause := by
  unfold idleSince due
  cases p.visits.getLast? with
  | none => exact le_rfl
  | some v => exact Nat.le_add_right _ _

end Progress

namespace Watch

variable (w : Watch) (fetch : σ → Fetched σ) (outside : σ) (polls pause : ℕ)

/-- An answer that leaves the watch `w` open: the transaction is unknown, or neither in one of
`w.targets` nor in the state of failure. -/
def Undecided : Except Error (Option Transaction) → Prop
  | .error _ => False
  | .ok none => True
  | .ok (some t) => t.state ∉ w.targets ∧ w.failState ≠ some t.state

/-- There are fetches left of `polls`, and the last one of `p` decided nothing. -/
def Open (p : Progress σ) : Prop := p.fetches < polls ∧ ∀ a ∈ p.answer?, w.Undecided a

/-- The fetches of `p` are made in their order: the first begins at once, each other a `pause` after
the one before it was over, and none once the watch is called off. -/
structure Orderly (p : Progress σ) : Prop where
  fetched : p.visits.map Visit.fetched = (List.range p.fetches).map (fetchAt fetch outside)
  outside_eq : p.outside = outsideAfter fetch outside p.fetches
  start : ∀ v ∈ p.visits.head?, v.time = 0
  spaced : p.visits.IsChain fun u v => v.time = u.finish + pause
  uncalled : ∀ i v, p.visits[i]? = some v → ¬ w.signalled v.time i

/-- All that a watch does until the ending `e`. -/
structure Course (e : Ending σ) : Prop where
  orderly : w.Orderly fetch outside pause e.toProgress
  fetches_le : e.fetches ≤ polls
  undecided : ∀ v ∈ e.visits.dropLast, w.Undecided v.fetched.answer
  /-- It succeeds with a transaction in a target state, be that the state of failure too. -/
  ok_iff : ∀ t, e.result = .ok t ↔ e.answer? = some (.ok (some t)) ∧ t.state ∈ w.targets
  /-- A fetch that fails ends it with its own error. -/
  broken : ∀ x, e.answer? = some (.error x) → e.result = .error x
  /-- Where no fetch failed, there are three errors left. -/
  failed_iff : (∀ x, e.answer? ≠ some (.error x)) → ∀ id state hash,
    e.result = .error (.failed id state hash) ↔ ∃ t, e.answer? = some (.ok (some t)) ∧
      t.state ∉ w.targets ∧ w.failState = some t.state ∧
      id = w.id ∧ state = t.state.name ∧ hash = t.hash
  timeout_iff : (∀ x, e.answer? ≠ some (.error x)) → ∀ id n,
    e.result = .error (.timeout id n) ↔ id = w.id ∧ n = polls ∧
      e.fetches = polls ∧ ∀ a ∈ e.answer?, w.Undecided a
  cancelled_iff : (∀ x, e.answer? ≠ some (.error x)) → ∀ id,
    e.result = .error (.cancelled id) ↔ id = w.id ∧ w.Open polls e.toProgress
  /-- What a fetch ends is over with the fetch. -/
  settled : ¬ w.Open polls e.toProgress → e.time = e.idleSince
  /-- Only a signal ends what is open. It came before the next fetch was to begin, and ends the
  watch as soon as no fetch is under way. -/
  calledOff : w.Open polls e.toProgress → ∃ s, w.signal = some s ∧
    w.signalled (e.due pause) e.fetches ∧ e.time = max e.idleSince s.moment

variable {w fetch outside polls pause} {p : Progress σ}

/-! ### What the last answer decides -/

theorem judge_eq_none {a : Except Error (Option Transaction)} :
    w.judge a = none ↔ w.Undecided a := by
  rcases a with x | t | t
  · simp [judge, Undecided]
  · simp [judge, Undecided]
  · by_cases htarget : t.state ∈ w.targets
    · simp [judge, Undecided, htarget]
    · by_cases hfail : w.failState = some t.state
      · simp [judge, Undecided, htarget, hfail]
      · simp [judge, Undecided, htarget, hfail]

/-- The result that the last answer of `p` stands for, or else the lack of fetches. -/
def verdict (w : Watch) (polls : ℕ) (p : Progress σ) : Except Error Transaction :=
  match p.answer?.bind w.judge with
  | some r => r
  | none => .error (if p.fetches = polls then .timeout w.id polls else .cancelled w.id)

theorem verdict_cases (w : Watch) (polls : ℕ) (p : Progress σ) :
    (∃ x, p.answer? = some (.error x) ∧ w.verdict polls p = .error x) ∨
    (∃ t, p.answer? = some (.ok (some t)) ∧ t.state ∈ w.targets ∧ w.verdict polls p = .ok t) ∨
    (∃ t, p.answer? = some (.ok (some t)) ∧ t.state ∉ w.targets ∧ w.failState = some t.state ∧
      w.verdict polls p = .error (.failed w.id t.state.name t.hash)) ∨
    ((∀ a ∈ p.answer?, w.Undecided a) ∧ w.verdict polls p =
      .error (if p.fetches = polls then .timeout w.id polls else .cancelled w.id)) := by
  unfold verdict
  rcases p.answer? with _ | x | _ | t
  · simp
  · simp [judge]
  · simp [judge, Undecided]
  · by_cases htarget : t.state ∈ w.targets
    · simp [judge, htarget]
    · by_cases hfail : w.failState = some t.state
      · simp [judge, htarget, hfail]
      · simp [judge, Undecided, htarget, hfail]

theorem verdict_eq_ok {t : Transaction} : w.verdict polls p = .ok t ↔
    p.answer? = some (.ok (some t)) ∧ t.state ∈ w.targets := by
  rcases w.verdict_cases polls p with
    ⟨x, ha, hv⟩ | ⟨u, ha, htarget, hv⟩ | ⟨u, ha, htarget, -, hv⟩ | ⟨hopen, hv⟩
  · simp [ha, hv]
  · rw [ha, hv]
    constructor
    · rintro ⟨⟩
      exact ⟨rfl, htarget⟩
    · rintro ⟨⟨⟩, -⟩
      rfl
  · rw [ha, hv]
    simp only [reduceCtorEq, false_iff, not_and]
    rintro ⟨⟩
    exact htarget
  · rw [hv]
    simp only [reduceCtorEq, false_iff, not_and]
    intro ha
    exact (hopen _ ha).1

theorem verdict_of_broken {x : Error} (h : p.answer? = some (.error x)) :
    w.verdict polls p = .error x := by
  simp [verdict, h, judge]

theorem verdict_eq_failed (hsound : ∀ x, p.answer? ≠ some (.error x)) {id state hash : String} :
    w.verdict polls p = .error (.failed id state hash) ↔ ∃ t, p.answer? = some (.ok (some t)) ∧
      t.state ∉ w.targets ∧ w.failState = some t.state ∧
      id = w.id ∧ state = t.state.name ∧ hash = t.hash := by
  rcases w.verdict_cases polls p with
    ⟨x, ha, -⟩ | ⟨u, ha, htarget, hv⟩ | ⟨u, ha, htarget, hfail, hv⟩ | ⟨hopen, hv⟩
  · exact absurd ha (hsound x)
  · rw [ha, hv]
    simp only [reduceCtorEq, false_iff, not_exists, not_and]
    rintro t ⟨⟩ hother
    exact absurd htarget hother
  · rw [ha, hv]
    constructor
    · rintro ⟨⟩
      exact ⟨u, rfl, htarget, hfail, rfl, rfl, rfl⟩
    · rintro ⟨t, ⟨⟩, -, -, rfl, rfl, rfl⟩
      rfl
  · rw [hv]
    constructor
    · intro h
      split at h
      · cases h
      · cases h
    · rintro ⟨t, ha, -, hfail, -⟩
      exact absurd hfail (hopen _ ha).2

/-- What the last answer of `p` decided is neither for lack of fetches nor a calling off. -/
theorem decided_or_verdict (hsound : ∀ x, p.answer? ≠ some (.error x)) :
    (¬ (∀ a ∈ p.answer?, w.Undecided a) ∧
      ∀ id n, w.verdict polls p ≠ .error (.timeout id n) ∧
        w.verdict polls p ≠ .error (.cancelled id)) ∨
    ((∀ a ∈ p.answer?, w.Undecided a) ∧ w.verdict polls p =
      .error (if p.fetches = polls then .timeout w.id polls else .cancelled w.id)) := by
  rcases w.verdict_cases polls p with
    ⟨x, ha, -⟩ | ⟨u, ha, htarget, hv⟩ | ⟨u, ha, htarget, hfail, hv⟩ | hopen
  · exact absurd ha (hsound x)
  · exact .inl ⟨fun h => (h _ ha).1 htarget, by simp [hv]⟩
  · exact .inl ⟨fun h => (h _ ha).2 hfail, by simp [hv]⟩
  · exact .inr hopen

theorem verdict_eq_timeout (hsound : ∀ x, p.answer? ≠ some (.error x)) {id : String} {n : ℕ} :
    w.verdict polls p = .error (.timeout id n) ↔ id = w.id ∧ n = polls ∧
      p.fetches = polls ∧ ∀ a ∈ p.answer?, w.Undecided a := by
  rcases decided_or_verdict hsound with ⟨hdecided, hv⟩ | ⟨hopen, hv⟩
  · exact iff_of_false (hv id n).1 fun h => hdecided h.2.2.2
  · rw [hv]
    split_ifs with hall
    · constructor
      · rintro ⟨⟩
        exact ⟨rfl, rfl, hall, hopen⟩
      · rintro ⟨rfl, rfl, -⟩
        rfl
    · simp [hall]

theorem verdict_eq_cancelled (hle : p.fetches ≤ polls) (hsound : ∀ x, p.answer? ≠ some (.error x))
    {id : String} :
    w.verdict polls p = .error (.cancelled id) ↔ id = w.id ∧ w.Open polls p := by
  rcases decided_or_verdict hsound with ⟨hdecided, hv⟩ | ⟨hopen, hv⟩
  · exact iff_of_false (hv id 0).2 fun h => hdecided h.2.2
  · rw [hv]
    split_ifs with hall
    · simp [Open, hall]
    · constructor
      · rintro ⟨⟩
        exact ⟨rfl, by omega, hopen⟩
      · rintro ⟨rfl, -⟩
        rfl

theorem Course.of_verdict {e : Ending σ} (orderly : w.Orderly fetch outside pause e.toProgress)
    (fetches_le : e.fetches ≤ polls)
    (undecided : ∀ v ∈ e.visits.dropLast, w.Undecided v.fetched.answer)
    (hresult : e.result = w.verdict polls e.toProgress)
    (settled : ¬ w.Open polls e.toProgress → e.time = e.idleSince)
    (calledOff : w.Open polls e.toProgress → ∃ s, w.signal = some s ∧
      w.signalled (e.due pause) e.fetches ∧ e.time = max e.idleSince s.moment) :
    w.Course fetch outside polls pause e where
  orderly := orderly
  fetches_le := fetches_le
  undecided := undecided
  ok_iff _ := hresult ▸ verdict_eq_ok
  broken _ ha := hresult ▸ verdict_of_broken ha
  failed_iff hsound _ _ _ := hresult ▸ verdict_eq_failed hsound
  timeout_iff hsound _ _ := hresult ▸ verdict_eq_timeout hsound
  cancelled_iff hsound _ := hresult ▸ verdict_eq_cancelled fetches_le hsound
  settled := settled
  calledOff := calledOff

/-! ### One round -/

/-- Between two fetches nothing has ended the watch `w`: the `pause` is over, and the signal did not
come before its end. -/
structure Underway (w : Watch) (fetch : σ → Fetched σ) (outside : σ) (pause : ℕ) (p : Progress σ) :
    Prop where
  orderly : w.Orderly fetch outside pause p
  undecided : ∀ v ∈ p.visits, w.Undecided v.fetched.answer
  time_eq : p.time = p.due pause
  time_le : ∀ s, w.signal = some s → p.time ≤ s.moment

theorem underway_start : w.Underway fetch outside pause { outside := outside } where
  orderly :=
    { fetched := rfl
      outside_eq := rfl
      start := by simp
      spaced := .nil
      uncalled := by simp }
  undecided := by simp
  time_eq := rfl
  time_le := fun _ _ => Nat.zero_le _

theorem Orderly.at_time (h : w.Orderly fetch outside pause p) (t : ℕ) :
    w.Orderly fetch outside pause { p with time := t } :=
  ⟨h.fetched, h.outside_eq, h.start, h.spaced, h.uncalled⟩

theorem fetches_afterFetch (f : Fetched σ) : (afterFetch p f).fetches = p.fetches + 1 := by
  simp [afterFetch, Progress.fetches]

theorem answer?_afterFetch (f : Fetched σ) : (afterFetch p f).answer? = some f.answer := by
  simp [afterFetch, Progress.answer?]

theorem idleSince_afterFetch (f : Fetched σ) :
    (afterFetch p f).idleSince = (afterFetch p f).time := by
  simp [afterFetch, Progress.idleSince, Visit.finish]

theorem due_afterFetch (gap : ℕ) (f : Fetched σ) :
    (afterFetch p f).due gap = (afterFetch p f).time + gap := by
  simp [afterFetch, Progress.due, Visit.finish]

/-- A fetch that begins when it is due, and before any signal, is made in order. -/
theorem Underway.afterFetch (h : w.Underway fetch outside pause p)
    (hcalled : ¬ w.signalled p.time p.fetches) :
    w.Orderly fetch outside pause (afterFetch p (fetch p.outside)) where
  fetched := by
    have hnext : fetch p.outside = fetchAt fetch outside p.fetches := by
      rw [fetchAt, h.orderly.outside_eq]
    rw [fetches_afterFetch, List.range_succ, List.map_append, ← h.orderly.fetched, Watch.afterFetch,
      List.map_append, hnext]
    rfl
  outside_eq := by
    rw [fetches_afterFetch, outsideAfter, ← h.orderly.outside_eq]
    rfl
  start := by
    have htime := h.time_eq
    have hstart := h.orderly.start
    rw [Watch.afterFetch, Progress.due] at *
    cases hvisits : p.visits with
    | nil => simpa [hvisits] using htime
    | cons v vs => simpa [hvisits] using hstart
  spaced := by
    have htime := h.time_eq
    rw [Progress.due] at htime
    refine List.isChain_append.2 ⟨h.orderly.spaced, .singleton _, ?_⟩
    intro u hu v hv
    obtain rfl : _ = v := by simpa using hv
    rw [Option.mem_def.1 hu] at htime
    exact htime
  uncalled := by
    intro i v hv
    rw [Watch.afterFetch, List.getElem?_append] at hv
    split_ifs at hv with hi
    · exact h.orderly.uncalled i v hv
    · obtain ⟨hlast, rfl⟩ : i - p.visits.length = 0 ∧ _ = v := by
        simpa [List.getElem?_singleton] using hv
      obtain rfl : i = p.fetches := by
        unfold Progress.fetches
        omega
      exact hcalled

theorem cut?_eq_some {t : ℕ} (h : w.cut? pause p = some t) : ∃ s, w.signal = some s ∧
    w.signalled (p.time + pause) p.fetches ∧ t = max p.time s.moment := by
  unfold cut? at h
  cases hsignal : w.signal with
  | none => simp [hsignal] at h
  | some s =>
    obtain ⟨hcut, rfl⟩ := by simpa [hsignal] using h
    refine ⟨s, rfl, ?_, rfl⟩
    simp only [signalled, hsignal, Option.any_some, Bool.or_eq_true, Bool.and_eq_true,
      decide_eq_true_eq]
    exact hcut.imp_right And.left

theorem le_of_cut?_eq_none (h : w.cut? pause p = none) {s : Signal} (hsignal : w.signal = some s) :
    p.time + pause ≤ s.moment := by
  simp only [cut?, hsignal, Option.pure_def, Option.bind_eq_bind, Option.bind_some, Bool.or_eq_true,
    Bool.and_eq_true, decide_eq_true_eq] at h
  split_ifs at h with hcut
  exact not_lt.1 fun hlt => hcut (.inl hlt)

theorem le_of_signalled {s : Signal} {time fetches : ℕ} (h : w.signalled time fetches)
    (hsignal : w.signal = some s) : s.moment ≤ time := by
  simp only [signalled, hsignal, Option.any_some, Bool.or_eq_true, Bool.and_eq_true,
    decide_eq_true_eq] at h
  omega

/-! ### All rounds -/

theorem verdict_of_undecided (h : ∀ a ∈ p.answer?, w.Undecided a) : w.verdict polls p =
    .error (if p.fetches = polls then .timeout w.id polls else .cancelled w.id) := by
  have hnone : p.answer?.bind w.judge = none := by
    cases ha : p.answer? with
    | none => rfl
    | some a => exact judge_eq_none.2 (h a ha)
  rw [verdict, hnone]

theorem verdict_of_open (h : w.Open polls p) : w.verdict polls p = .error (.cancelled w.id) := by
  rw [verdict_of_undecided h.2, if_neg h.1.ne]

/-- A watch that is called off before it begins to fetch, or just as a pause is over. -/
theorem Underway.course_of_signalled (h : w.Underway fetch outside pause p)
    (hlt : p.fetches < polls) (hcalled : w.signalled p.time p.fetches) :
    w.Course fetch outside polls pause ⟨p, .error (.cancelled w.id)⟩ := by
  have hundecided : ∀ a ∈ p.answer?, w.Undecided a := by
    intro a ha
    obtain ⟨v, hv, rfl⟩ := Option.map_eq_some_iff.1 ha
    exact h.undecided v (List.mem_of_getLast? hv)
  have hopen : w.Open polls p := ⟨hlt, hundecided⟩
  refine .of_verdict h.orderly hlt.le (fun v hv => h.undecided v (List.dropLast_subset _ hv))
    (verdict_of_open hopen).symm (absurd hopen) fun _ => ?_
  obtain ⟨s, hsignal⟩ : ∃ s, w.signal = some s := by
    cases hsignal : w.signal with
    | none => simp [signalled, hsignal] at hcalled
    | some s => exact ⟨s, rfl⟩
  have hmoment := le_antisymm (le_of_signalled hcalled hsignal) (h.time_le s hsignal)
  have hidle : p.idleSince ≤ p.time := h.time_eq ▸ p.idleSince_le_due pause
  refine ⟨s, hsignal, h.time_eq ▸ hcalled, ?_⟩
  rw [max_eq_right (hmoment ▸ hidle), hmoment]

theorem runFrom_course {o : PollOptions} {left : ℕ} (h : w.Underway fetch outside o.pause p)
    (hleft : p.fetches + left = o.maxPolls) (hpos : 0 < left) :
    w.Course fetch outside o.maxPolls o.pause (w.runFrom o fetch left p) := by
  induction left generalizing p with
  | zero => exact absurd hpos (lt_irrefl 0)
  | succ left ih =>
    rw [runFrom]
    by_cases hcalled : w.signalled p.time p.fetches
    · rw [if_pos hcalled]
      exact h.course_of_signalled (by omega) hcalled
    rw [if_neg hcalled]
    have horderly := h.afterFetch hcalled
    have hfetches := fetches_afterFetch (p := p) (fetch p.outside)
    have hanswer := answer?_afterFetch (p := p) (fetch p.outside)
    have hidle := idleSince_afterFetch (p := p) (fetch p.outside)
    have hdue := due_afterFetch (p := p) o.pause (fetch p.outside)
    have hvisits : (afterFetch p (fetch p.outside)).visits =
      p.visits ++ [⟨p.time, fetch p.outside⟩] := rfl
    dsimp only
    generalize afterFetch p (fetch p.outside) = q at *
    have hle : q.fetches ≤ o.maxPolls := by omega
    have hdropped : ∀ v ∈ q.visits.dropLast, w.Undecided v.fetched.answer := by
      rw [hvisits, List.dropLast_concat]
      exact h.undecided
    cases hjudge : w.judge (fetch p.outside).answer with
    | some r =>
      have hdecided : ¬ w.Open o.maxPolls q := fun hopen => by
        simp [judge_eq_none.2 (hopen.2 _ hanswer)] at hjudge
      refine .of_verdict horderly hle hdropped ?_ (fun _ => hidle.symm) (absurd · hdecided)
      simp [verdict, hanswer, hjudge]
    | none =>
      have hundecided : ∀ a ∈ q.answer?, w.Undecided a := by
        rw [hanswer]
        rintro a ⟨⟩
        exact judge_eq_none.1 hjudge
      by_cases hlast : left = 0
      · have hall : q.fetches = o.maxPolls := by omega
        rw [if_pos hlast]
        refine .of_verdict horderly hall.le hdropped ?_ (fun _ => hidle.symm)
          fun hopen => absurd hall hopen.1.ne
        rw [verdict_of_undecided hundecided, if_pos hall]
      rw [if_neg hlast]
      have hopen : w.Open o.maxPolls q := ⟨by omega, hundecided⟩
      cases hcut : w.cut? o.pause q with
      | some t =>
        obtain ⟨s, hsignal, hsignalled, rfl⟩ := cut?_eq_some hcut
        refine .of_verdict (horderly.at_time _) hopen.1.le hdropped (verdict_of_open hopen).symm
          (absurd hopen) fun _ => ⟨s, hsignal, hdue ▸ hsignalled, ?_⟩
        exact congrArg (max · s.moment) hidle.symm
      | none =>
        refine ih ⟨horderly.at_time _, ?_, hdue.symm, fun s => le_of_cut?_eq_none hcut⟩ ?_ ?_
        · intro v hv
          rw [hvisits, List.mem_append, List.mem_singleton] at hv
          rcases hv with hv | rfl
          · exact h.undecided v hv
          · exact judge_eq_none.1 hjudge
        · change q.fetches + left = o.maxPolls
          omega
        · omega

/-- The watch `w` takes its `Course` with any options, with ten fetches for none and two seconds for
a pause of less than one. -/
theorem run_course (w : Watch) (fetch : σ → Fetched σ) (outside : σ) :
    w.Course fetch outside (if w.options.maxPolls = 0 then 10 else w.options.maxPolls)
      (if w.options.pause < 1000 then 2000 else w.options.pause) (w.run fetch outside) := by
  refine runFrom_course (o := w.options.normalized) underway_start (Nat.zero_add _) ?_
  unfold PollOptions.normalized
  dsimp only
  split_ifs <;> omega

end Watch
end TradingDesk.Relay
