import TradingDesk.Error

/-! How failures pass through a sequence of steps, and computations whose only failures are
refusals of what was asked for. -/

namespace TradingDesk

section Steps

variable {ε α β : Type}

theorem bind_eq_ok {x : Except ε α} {f : α → Except ε β} {b : β} :
    x >>= f = .ok b ↔ ∃ a, x = .ok a ∧ f a = .ok b := by
  cases x <;> simp [bind, Except.bind]

theorem bind_eq_error {x : Except ε α} {f : α → Except ε β} {e : ε} :
    x >>= f = .error e ↔ x = .error e ∨ ∃ a, x = .ok a ∧ f a = .error e := by
  cases x <;> simp [bind, Except.bind]

@[simp] theorem ok_bind (a : α) (f : α → Except ε β) : Except.ok a >>= f = f a := rfl

@[simp] theorem error_bind (e : ε) (f : α → Except ε β) :
    (Except.error e : Except ε α) >>= f = .error e := rfl

theorem map_eq_ok {x : Except ε α} {f : α → β} {b : β} :
    x.map f = .ok b ↔ ∃ a, x = .ok a ∧ f a = b := by
  cases x <;> simp [Except.map]

theorem map_eq_error {x : Except ε α} {f : α → β} {e : ε} :
    x.map f = .error e ↔ x = .error e := by
  cases x <;> simp [Except.map]

theorem mapError_eq_ok {ε' : Type} {x : Except ε α} {f : ε → ε'} {a : α} :
    x.mapError f = .ok a ↔ x = .ok a := by
  cases x with
  | ok b =>
    change (Except.ok b : Except ε' α) = .ok a ↔ _
    simp
  | error cause =>
    change (Except.error (f cause) : Except ε' α) = .ok a ↔ _
    simp

theorem mapError_eq_error {ε' : Type} {x : Except ε α} {f : ε → ε'} {e : ε'} :
    x.mapError f = .error e ↔ ∃ cause, x = .error cause ∧ f cause = e := by
  cases x with
  | ok b =>
    change (Except.ok b : Except ε' α) = .error e ↔ _
    simp
  | error cause =>
    change (Except.error (f cause) : Except ε' α) = .error e ↔ _
    simp

/-! ### Lists of steps -/

theorem mapM_eq_ok {f : α → Except ε β} {l : List α} {bs : List β} :
    l.mapM f = .ok bs ↔ l.map f = bs.map .ok := by
  induction l generalizing bs with
  | nil =>
    cases bs with
    | nil => exact ⟨fun _ => rfl, fun _ => rfl⟩
    | cons b bs =>
      constructor
      · intro h
        cases h
      · intro h
        cases h
  | cons a l ih =>
    rw [List.mapM_cons, List.map_cons]
    constructor
    · intro h
      obtain ⟨b, hb, hrest⟩ := bind_eq_ok.1 h
      obtain ⟨cs, hcs, hpure⟩ := bind_eq_ok.1 hrest
      cases hpure
      rw [hb, ih.1 hcs, List.map_cons]
    · intro h
      cases bs with
      | nil => cases h
      | cons b bs =>
        obtain ⟨hb, hbs⟩ := List.cons.inj h
        rw [hb, ih.2 hbs]
        rfl

theorem mapM_eq_some {f : α → Option β} {l : List α} {bs : List β} :
    l.mapM f = some bs ↔ l.map f = bs.map some := by
  induction l generalizing bs with
  | nil => cases bs <;> simp
  | cons a l ih =>
    rw [List.mapM_cons, List.map_cons]
    simp only [Option.bind_eq_bind, Option.bind_eq_some_iff, ih, Option.pure_def,
      Option.some.injEq]
    constructor
    · rintro ⟨b, hb, cs, hcs, rfl⟩
      rw [hb, hcs, List.map_cons]
    · intro h
      cases bs with
      | nil => cases h
      | cons b bs =>
        obtain ⟨hb, hbs⟩ := List.cons.inj h
        exact ⟨b, hb, bs, hbs, rfl⟩

theorem exists_mapM_ok {f : α → Except ε β} {l : List α} :
    (∃ bs, l.mapM f = .ok bs) ↔ ∀ a ∈ l, ∃ b, f a = .ok b := by
  simp only [mapM_eq_ok]
  induction l with
  | nil => exact ⟨fun _ a ha => absurd ha List.not_mem_nil, fun _ => ⟨[], rfl⟩⟩
  | cons a l ih =>
    rw [List.forall_mem_cons, ← ih]
    constructor
    · rintro ⟨bs, h⟩
      cases bs with
      | nil => cases h
      | cons b bs =>
        obtain ⟨hb, hbs⟩ := List.cons.inj h
        exact ⟨⟨b, hb⟩, bs, hbs⟩
    · rintro ⟨⟨b, hb⟩, bs, hbs⟩
      exact ⟨b :: bs, by rw [List.map_cons, List.map_cons, hb, hbs]⟩

/-- A list of steps fails with `e` as the first step that does. -/
theorem mapM_eq_error {f : α → Except ε β} {l : List α} {e : ε} :
    l.mapM f = .error e ↔ ∃ before a after, l = before ++ a :: after ∧
      (∀ x ∈ before, ∃ b, f x = .ok b) ∧ f a = .error e := by
  constructor
  · intro h
    induction l with
    | nil => cases h
    | cons a l ih =>
      rw [List.mapM_cons] at h
      rcases bind_eq_error.1 h with ha | ⟨b, hb, hrest⟩
      · exact ⟨[], a, l, rfl, fun x hx => absurd hx List.not_mem_nil, ha⟩
      · rcases bind_eq_error.1 hrest with hl | ⟨bs, -, hpure⟩
        · obtain ⟨before, c, after, rfl, hbefore, hc⟩ := ih hl
          exact ⟨a :: before, c, after, rfl, List.forall_mem_cons.2 ⟨⟨b, hb⟩, hbefore⟩, hc⟩
        · cases hpure
  · rintro ⟨before, a, after, rfl, hbefore, ha⟩
    obtain ⟨bs, hbs⟩ := exists_mapM_ok.2 hbefore
    rw [List.mapM_append, hbs, List.mapM_cons, ha]
    rfl

end Steps

variable {α β : Type}

/-- Every failure of `r` is a refusal. -/
def OnlyInvalid (r : Except Error α) : Prop := ∀ e, r = .error e → ∃ cause, e = .invalid cause

namespace OnlyInvalid

theorem ok (a : α) : OnlyInvalid (.ok a) := by
  rintro e ⟨⟩

theorem error (cause : Invalid) : OnlyInvalid (.error (.invalid cause) : Except Error α) := by
  rintro e ⟨⟩
  exact ⟨cause, rfl⟩

theorem bind {x : Except Error α} {f : α → Except Error β} (hx : OnlyInvalid x)
    (hf : ∀ a, x = .ok a → OnlyInvalid (f a)) : OnlyInvalid (x >>= f) := by
  intro e he
  rcases bind_eq_error.mp he with h | ⟨a, ha, h⟩
  · exact hx e h
  · exact hf a ha e h

theorem map {x : Except Error α} (hx : OnlyInvalid x) (f : α → β) : OnlyInvalid (x.map f) := by
  cases x with
  | ok a => exact ok _
  | error e =>
    obtain ⟨cause, rfl⟩ := hx e rfl
    exact error cause

/-- What does not succeed is refused. -/
theorem exists_error {r : Except Error α} (h : OnlyInvalid r) (hr : ∀ a, r ≠ .ok a) :
    ∃ cause, r = .error (.invalid cause) := by
  cases r with
  | ok a => exact absurd rfl (hr a)
  | error e =>
    obtain ⟨cause, rfl⟩ := h e rfl
    exact ⟨cause, rfl⟩

end OnlyInvalid

end TradingDesk
