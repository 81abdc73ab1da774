import TradingDesk.Proofs.Error
import TradingDesk.Signing.Request

/-! Runs of sessions, step by step: what a run of a sequence is, and what each dealing with the
outside answers and writes down. -/

namespace TradingDesk

/-- The requests among `events`. -/
def sent (events : List Event) : List Request :=
  events.filterMap fun e => match e with
    | .sent r => some r
    | _ => none

@[simp] theorem sent_append (events later : List Event) :
    sent (events ++ later) = sent events ++ sent later := List.filterMap_append

@[simp] theorem sent_map (rs : List Request) : sent (rs.map .sent) = rs := by
  rw [sent, List.filterMap_map]
  exact List.filterMap_some

/-- Just the bytes of the signature `g` are read as `g`. -/
theorem Signature.ofBytes_eq_ok {bs : Bytes} {g : Signature} :
    ofBytes bs = .ok g ↔ bs = g.bytes := by
  unfold ofBytes
  split
  · rename_i hlength
    constructor
    · rintro ⟨⟩
      rfl
    · rintro rfl
      rfl
  · rename_i hlength
    constructor
    · rintro ⟨⟩
    · rintro rfl
      exact absurd g.length_eq hlength

namespace Session

variable {σ α β : Type}

@[simp] theorem run_pure (a : α) (w : World) (log : Log σ) :
    (pure a : Session σ α).run w log = (.ok a, log) := rfl

theorem run_bind (s : Session σ α) (f : α → Session σ β) (w : World) (log : Log σ) :
    (s >>= f).run w log =
      match s.run w log with
      | (.ok a, next) => (f a).run w next
      | (.error e, next) => (.error e, next) := by
  change StateT.bind (s w) (ExceptT.bindCont fun a => f a w) log = _
  rw [StateT.bind]
  simp only [Session.run, ReaderT.run, ExceptT.run, StateT.run]
  rcases s w log with ⟨r, next⟩
  cases r with
  | ok a => rfl
  | error e => rfl

theorem run_bind_eq_ok {s : Session σ α} {f : α → Session σ β} {w : World} {log after : Log σ}
    {b : β} : (s >>= f).run w log = (.ok b, after) ↔
      ∃ a next, s.run w log = (.ok a, next) ∧ (f a).run w next = (.ok b, after) := by
  rw [run_bind]
  rcases s.run w log with ⟨r, next⟩
  cases r with
  | ok a =>
    constructor
    · intro h
      exact ⟨a, next, rfl, h⟩
    · rintro ⟨a, next, ⟨⟩, h⟩
      exact h
  | error e => simp

@[simp] theorem run_ofExcept (x : Except Error α) (w : World) (log : Log σ) :
    (ofExcept x : Session σ α).run w log = (x, log) := by
  cases x with
  | ok a => rfl
  | error e => rfl

@[simp] theorem run_note (e : Event) (w : World) (log : Log σ) :
    (note e : Session σ (List Event)).run w log =
      (.ok log.events, { log with events := log.events ++ [e] }) := rfl

theorem run_askSignature (signer : Address) (digest : Word) (w : World) (log : Log σ) :
    (askSignature signer digest : Session σ Bytes).run w log =
      (w.sign log.events signer digest,
        { log with events := log.events ++ [.asked signer digest] }) := by
  rw [askSignature, run_bind, run_note]
  exact run_ofExcept ..

theorem run_signature (signer : Address) (digest : Word) (w : World) (log : Log σ) :
    (signature signer digest : Session σ Signature).run w log =
      (do (Signature.ofBytes (← w.sign log.events signer digest)).mapError .signing,
        { log with events := log.events ++ [.asked signer digest] }) := by
  rw [signature, run_bind, run_askSignature]
  cases w.sign log.events signer digest with
  | ok bs => exact run_ofExcept ..
  | error e => rfl

/-- The `signer` is asked once, and its answer serves if it has the length of a signature. -/
theorem run_signature_eq_ok {signer : Address} {digest : Word} {w : World} {log after : Log σ}
    {g : Signature} : (signature signer digest).run w log = (.ok g, after) ↔
      w.sign log.events signer digest = .ok g.bytes ∧
        after = { log with events := log.events ++ [.asked signer digest] } := by
  rw [signature, run_bind_eq_ok]
  simp only [run_askSignature, run_ofExcept, Prod.mk.injEq, mapError_eq_ok,
    Signature.ofBytes_eq_ok]
  constructor
  · rintro ⟨bs, next, ⟨hsign, rfl⟩, rfl, rfl⟩
    exact ⟨hsign, rfl⟩
  · rintro ⟨hsign, rfl⟩
    exact ⟨g.bytes, _, ⟨hsign, rfl⟩, rfl, rfl⟩

@[simp] theorem run_throw (e : Error) (w : World) (log : Log σ) :
    (throw e : Session σ α).run w log = (.error e, log) := rfl

/-- The session of `f` goes on from where `s` failed. -/
theorem run_tryCatch (s : Session σ α) (f : Error → Session σ α) (w : World) (log : Log σ) :
    (tryCatch s f).run w log =
      match s.run w log with
      | (.ok a, next) => (.ok a, next)
      | (.error e, next) => (f e).run w next := by
  change ExceptT.tryCatch (s w) (fun e => f e w) log = _
  simp only [ExceptT.tryCatch, ExceptT.mk, Session.run, ReaderT.run, ExceptT.run, StateT.run]
  change StateT.bind (s w) _ log = _
  rw [StateT.bind]
  rcases s w log with ⟨r, next⟩
  cases r with
  | ok a => rfl
  | error e => rfl

@[simp] theorem run_state (w : World) (log : Log σ) :
    (state : Session σ σ).run w log = (.ok log.state, log) := rfl

theorem run_now (w : World) (log : Log σ) :
    (now : Session σ UInt64).run w log =
      (.ok (UInt64.ofNat (w.clock log.events).toNat),
        { log with events := log.events ++ [.clockRead] }) := rfl

theorem run_drawSalt (w : World) (log : Log σ) :
    (drawSalt : Session σ UInt64).run w log = (.ok (w.random log.events % 9007199254740992),
      { log with events := log.events ++ [.saltDrawn] }) := rfl

@[simp] theorem run_setState (s : σ) (w : World) (log : Log σ) :
    (setState s : Session σ Unit).run w log = (.ok (), { log with state := s }) := rfl

theorem run_send (r : Request) (w : World) (log : Log σ) :
    (send r : Session σ Response).run w log =
      (w.respond log.events r, { log with events := log.events ++ [.sent r] }) := by
  rw [send, run_bind, run_note]
  exact run_ofExcept ..

theorem run_fetch (r : Request) (read : Json → Option α) (w : World) (log : Log σ) :
    (fetch r read : Session σ α).run w log =
      (do (← w.respond log.events r).decode read,
        { log with events := log.events ++ [.sent r] }) := by
  rw [fetch, run_bind, run_send]
  cases w.respond log.events r with
  | ok a => exact run_ofExcept ..
  | error e => rfl

theorem decode_eq_ok {r : Response} {read : Json → Option α} {a : α} :
    r.decode read = .ok a ↔
      (200 ≤ r.status ∧ r.status < 300) ∧ Json.parse? r.body >>= read = some a := by
  rw [Response.decode, Response.checked, Response.succeeded]
  by_cases hstatus : 200 ≤ r.status ∧ r.status < 300
  · rw [if_pos (by simpa using hstatus), ok_bind]
    cases Json.parse? r.body >>= read with
    | some b => simp [hstatus, pure, Except.pure]
    | none => simp
  · rw [if_neg (by simpa using hstatus), error_bind]
    simp [hstatus]

theorem decode_eq_error {r : Response} {read : Json → Option α} {e : Error} :
    r.decode read = .error e ↔
      ¬ (200 ≤ r.status ∧ r.status < 300) ∧ e = .ofRefusal r.status r.body ∨
      (200 ≤ r.status ∧ r.status < 300) ∧ Json.parse? r.body >>= read = none ∧ e = .unreadable := by
  rw [Response.decode, Response.checked, Response.succeeded]
  by_cases hstatus : 200 ≤ r.status ∧ r.status < 300
  · rw [if_pos (by simpa using hstatus), ok_bind]
    cases Json.parse? r.body >>= read with
    | some a => simp [hstatus, pure, Except.pure]
    | none => simp [hstatus, eq_comm]
  · rw [if_neg (by simpa using hstatus), error_bind]
    simp [hstatus, eq_comm]

theorem decode_of_read {status : Nat} {body : Bytes} {read : Json → Option α} {a : α}
    (hstatus : 200 ≤ status ∧ status < 300) (h : Json.parse? body >>= read = some a) :
    (Response.mk status body).decode read = .ok a :=
  decode_eq_ok.2 ⟨hstatus, h⟩

/-! ### What a session writes down -/

/-- From the state `st` a session stays in that state, writes down only events with `P`, and what it
returns has `Q`. -/
def Keeps (st : σ) (P : Event → Prop) (s : Session σ α) (Q : α → Prop) : Prop :=
  ∀ (w : World) (events : List Event), ∃ added,
    (s.run w ⟨st, events⟩).2 = ⟨st, events ++ added⟩ ∧ (∀ e ∈ added, P e) ∧
      ∀ a, (s.run w ⟨st, events⟩).1 = .ok a → Q a

/-- The session `s` without what it returns. -/
def toUnit (s : Session σ α) : Session σ Unit := do
  let _ ← s

namespace Keeps

variable {st : σ} {P : Event → Prop} {s : Session σ α} {Q : α → Prop}

theorem quiet {x : Except Error α} (hrun : ∀ w events, s.run w ⟨st, events⟩ = (x, ⟨st, events⟩))
    (hQ : ∀ a, x = .ok a → Q a) : Keeps st P s Q := by
  intro w events
  refine ⟨[], ?_, by simp, ?_⟩
  · rw [hrun, List.append_nil]
  · rwa [hrun]

theorem noted {e : Event} {answer : World → List Event → Except Error α}
    (hrun : ∀ w events, s.run w ⟨st, events⟩ = (answer w events, ⟨st, events ++ [e]⟩))
    (he : P e) : Keeps st P s fun _ => True := by
  intro w events
  exact ⟨[e], congrArg Prod.snd (hrun w events), by simpa using he, fun _ _ => trivial⟩

theorem pure {a : α} (h : Q a) : Keeps st P (Pure.pure a) Q := by
  refine quiet (fun w events => run_pure a w ⟨st, events⟩) ?_
  rintro _ ⟨⟩
  exact h

theorem throw (e : Error) : Keeps st P (MonadExcept.throw e : Session σ α) Q := by
  refine quiet (fun w events => run_throw e w ⟨st, events⟩) ?_
  rintro _ ⟨⟩

theorem ofExcept {x : Except Error α} (h : ∀ a, x = .ok a → Q a) :
    Keeps st P (Session.ofExcept x) Q :=
  quiet (fun w events => run_ofExcept x w ⟨st, events⟩) h

theorem bind {f : α → Session σ β} {R : β → Prop} (h : Keeps st P s Q)
    (hf : ∀ a, Q a → Keeps st P (f a) R) : Keeps st P (s >>= f) R := by
  intro w events
  obtain ⟨added, hlog, hadded, hresult⟩ := h w events
  rw [run_bind]
  rcases hrun : s.run w ⟨st, events⟩ with ⟨r, next⟩
  rw [hrun] at hlog hresult
  obtain rfl : next = ⟨st, events ++ added⟩ := hlog
  cases r with
  | ok a =>
    obtain ⟨more, hlog, hmore, hresult⟩ := hf a (hresult a rfl) w (events ++ added)
    refine ⟨added ++ more, by rw [hlog, List.append_assoc], ?_, hresult⟩
    intro e he
    exact (List.mem_append.1 he).elim (hadded e) (hmore e)
  | error e =>
    refine ⟨added, rfl, hadded, ?_⟩
    rintro b ⟨⟩

theorem toUnit (h : Keeps st P s Q) : Keeps st P s.toUnit fun _ => True :=
  h.bind fun _ _ => .pure trivial

/-- A session that goes on only if there is nothing against it. -/
theorem guarded {p : Prop} [Decidable p] {e : Error} (h : Keeps st P s Q) :
    Keeps st P (if p then MonadExcept.throw e >>= fun (_ : PUnit) => s else s) Q := by
  split
  · exact (throw (Q := fun _ => False) e).bind fun _ hfalse => hfalse.elim
  · exact h

theorem state : Keeps st P Session.state (· = st) := by
  refine quiet (x := .ok st) (fun w events => run_state w ⟨st, events⟩) ?_
  rintro _ ⟨⟩
  rfl

theorem now (h : P .clockRead) : Keeps st P Session.now fun _ => True :=
  noted (fun w events => run_now w ⟨st, events⟩) h

theorem send {r : Request} (h : P (.sent r)) : Keeps st P (Session.send r) fun _ => True :=
  noted (fun w events => run_send r w ⟨st, events⟩) h

theorem fetch {r : Request} (h : P (.sent r)) (read : Json → Option α) :
    Keeps st P (Session.fetch r read) fun _ => True :=
  noted (fun w events => run_fetch r read w ⟨st, events⟩) h

theorem drawSalt (h : P .saltDrawn) : Keeps st P Session.drawSalt fun _ => True :=
  noted (fun w events => run_drawSalt w ⟨st, events⟩) h

theorem signature {signer : Address} {digest : Word} (h : P (.asked signer digest)) :
    Keeps st P (Session.signature signer digest) fun _ => True :=
  noted (fun w events => run_signature signer digest w ⟨st, events⟩) h

end Keeps

/-- Nothing but events with `P` is written down between the two logs. -/
def Adds (P : Event → Prop) (log next : Log σ) : Prop :=
  ∃ added, next.events = log.events ++ added ∧ ∀ e ∈ added, P e

theorem Adds.of_eq {P : Event → Prop} {log next : Log σ} (h : next.events = log.events) :
    Adds P log next :=
  ⟨[], by rw [h, List.append_nil], by simp⟩

theorem Adds.trans {P : Event → Prop} {log next after : Log σ} (h : Adds P log next)
    (h' : Adds P next after) : Adds P log after := by
  obtain ⟨added, hevents, hadded⟩ := h
  obtain ⟨more, hevents', hmore⟩ := h'
  refine ⟨added ++ more, by rw [hevents', hevents, List.append_assoc], ?_⟩
  intro e he
  exact (List.mem_append.1 he).elim (hadded e) (hmore e)

/-- What `s` returns makes no difference to the log that it leaves. -/
theorem run_toUnit_log (s : Session σ α) (w : World) (log : Log σ) :
    (s.toUnit.run w log).2 = (s.run w log).2 := by
  rw [toUnit, run_bind]
  rcases s.run w log with ⟨r, next⟩
  cases r with
  | ok a => rfl
  | error e => rfl

/-- Whatever state it has, a session writes down only events with `P`. -/
def Writes (P : Event → Prop) (s : Session σ α) : Prop :=
  ∀ (w : World) (log : Log σ), Adds P log (s.run w log).2

theorem Keeps.writes {P : Event → Prop} {s : Session σ α} {Q : σ → α → Prop}
    (h : ∀ st, Keeps st P s (Q st)) : Writes P s := by
  intro w log
  obtain ⟨added, hlog, hadded, -⟩ := h log.state w log.events
  exact ⟨added, congrArg Log.events hlog, hadded⟩

namespace Writes

variable {P : Event → Prop} {s : Session σ α}

theorem pure (a : α) : Writes P (Pure.pure a : Session σ α) := fun _ _ => .of_eq rfl

theorem throw (e : Error) : Writes P (MonadExcept.throw e : Session σ α) := fun _ _ => .of_eq rfl

theorem state : Writes P (Session.state : Session σ σ) := fun _ _ => .of_eq rfl

theorem setState (st : σ) : Writes P (Session.setState st) := fun _ _ => .of_eq rfl

theorem bind {f : α → Session σ β} (h : Writes P s) (hf : ∀ a, Writes P (f a)) :
    Writes P (s >>= f) := by
  intro w log
  have hfirst := h w log
  rw [run_bind]
  rcases hrun : s.run w log with ⟨r, next⟩
  rw [hrun] at hfirst
  cases r with
  | ok a => exact hfirst.trans (hf a w next)
  | error e => exact hfirst

theorem tryCatch {f : Error → Session σ α} (h : Writes P s) (hf : ∀ e, Writes P (f e)) :
    Writes P (MonadExcept.tryCatch s f) := by
  intro w log
  have hfirst := h w log
  rw [run_tryCatch]
  rcases hrun : s.run w log with ⟨r, next⟩
  rw [hrun] at hfirst
  cases r with
  | ok a => exact hfirst
  | error e => exact hfirst.trans (hf e w next)

theorem toUnit_iff : Writes P s.toUnit ↔ Writes P s := by
  simp only [Writes, run_toUnit_log]

end Writes

end Session
end TradingDesk
