import TradingDesk.Exchange.Client
import TradingDesk.Proofs.Auth.Headers

/-! Requests that are made with credentials. The clock is read, the headers are made for the
request as it is, and the request is sent with them. Without credentials nothing is done; where a
secret cannot be read nothing is sent. -/

namespace TradingDesk

/-- What a request brings back after the events `past`, once it is read. -/
def World.reply {α : Type} (w : World) (read : Json → Option α) (past : List Event) (r : Request) :
    Except Error α := do
  (← w.respond past r).decode read

/-- The value `a` is read just from an answer that reports a success and has a body to read it from.
-/
theorem World.reply_eq_ok {α : Type} {w : World} {read : Json → Option α} {past : List Event}
    {r : Request} {a : α} : w.reply read past r = .ok a ↔ ∃ answer j,
      w.respond past r = .ok answer ∧ (200 ≤ answer.status ∧ answer.status < 300) ∧
      Json.parse? answer.body = some j ∧ read j = some a := by
  rw [reply, bind_eq_ok]
  constructor
  · rintro ⟨answer, hanswer, hdecode⟩
    obtain ⟨hstatus, hbody⟩ := Session.decode_eq_ok.1 hdecode
    obtain ⟨j, hparsed, hread⟩ := Option.bind_eq_some_iff.1 hbody
    exact ⟨answer, j, hanswer, hstatus, hparsed, hread⟩
  · rintro ⟨answer, j, hanswer, hstatus, hparsed, hread⟩
    exact ⟨answer, hanswer, Session.decode_eq_ok.2
      ⟨hstatus, Option.bind_eq_some_iff.2 ⟨j, hparsed, hread⟩⟩⟩

theorem RequestSignature.sign_of_error {secret : String} {fault : Base64.Error}
    (h : decodeSecret secret = .error fault) (timestamp method path : String)
    (body : Option String) :
    sign secret timestamp method path body = .error (.auth (.secret fault)) := by
  rw [sign, h]

namespace Exchange.Client

open Session

/-- The headers that the credentials `creds` give the request `r`. -/
def headersAt (c : Client) (creds : Credentials) (r : Request) (time : UInt64) :
    Except Error Headers := do
  let own ← Auth.traderHeaders c.address creds r.method.name r.path r.body time
  match c.builder with
  | none => return own
  | some b => return own.merge (← Auth.builderHeaders b r.method.name r.path r.body time)

/-- The request with the headers that it has after the events `past`. -/
def signedAt (c : Client) (creds : Credentials) (w : World) (past : List Event) (r : Request) :
    Except Error Request :=
  (c.headersAt creds r (UInt64.ofNat (w.clock past).toNat)).map r.withHeaders

/-- The secrets of `creds` and, if there is one, of the builder can be read. -/
def CanSign (c : Client) (creds : Credentials) : Prop :=
  ∀ b ∈ creds :: c.builder.toList, ∃ k, RequestSignature.decodeSecret b.secret = .ok k

variable {α : Type} {c : Client} {creds : Credentials} {w : World} {st : State} {past : List Event}
  {r s : Request}

/-- The headers `hs` are all that is added to `r`. -/
theorem signedAt_eq_ok (h : c.signedAt creds w past r = .ok s) : ∃ hs, s = r.withHeaders hs := by
  obtain ⟨hs, -, rfl⟩ := map_eq_ok.1 h
  exact ⟨hs, rfl⟩

theorem exists_signedAt (h : c.CanSign creds) (w : World) (past : List Event) (r : Request) :
    ∃ s, c.signedAt creds w past r = .ok s := by
  obtain ⟨⟨k, hk⟩, hbuilder⟩ := List.forall_mem_cons.1 h
  rw [signedAt, headersAt, Auth.traderHeaders_eq, Auth.sign_eq_ok.2 ⟨k, hk, rfl⟩, Except.map,
    ok_bind]
  cases hb : c.builder with
  | none => exact ⟨_, rfl⟩
  | some b =>
    obtain ⟨l, hl⟩ := hbuilder b (by simp [hb])
    dsimp only
    rw [Auth.builderHeaders_eq, Auth.sign_eq_ok.2 ⟨l, hl, rfl⟩]
    exact ⟨_, rfl⟩

theorem signedAt_of_not_canSign (h : ¬ c.CanSign creds) :
    ∃ fault, ∀ w past r, c.signedAt creds w past r = .error (.auth (.secret fault)) := by
  cases hown : RequestSignature.decodeSecret creds.secret with
  | error fault =>
    refine ⟨fault, fun w past r => ?_⟩
    rw [signedAt, headersAt, Auth.traderHeaders_eq, RequestSignature.sign_of_error hown]
    rfl
  | ok k =>
    cases hb : c.builder with
    | none => exact absurd (by simp [CanSign, hb, hown]) h
    | some b =>
      cases hother : RequestSignature.decodeSecret b.secret with
      | ok l => exact absurd (by simp [CanSign, hb, hown, hother]) h
      | error fault =>
        refine ⟨fault, fun w past r => ?_⟩
        rw [signedAt, headersAt, Auth.traderHeaders_eq, Auth.sign_eq_ok.2 ⟨k, hown, rfl⟩,
          Except.map, ok_bind, hb]
        dsimp only
        rw [Auth.builderHeaders_eq, RequestSignature.sign_of_error hother]
        rfl

theorem run_requireCredentials (h : st.credentials = some creds) :
    requireCredentials.run w ⟨st, past⟩ = (.ok creds, ⟨st, past⟩) := by
  rw [requireCredentials, run_bind, run_state]
  dsimp only
  rw [h, run_pure]

theorem run_requireCredentials_none (h : st.credentials = none) :
    requireCredentials.run w ⟨st, past⟩ = (.error (.auth .noCredentials), ⟨st, past⟩) := by
  rw [requireCredentials, run_bind, run_state]
  dsimp only
  rw [h, run_throw]

theorem run_headersFor (h : st.credentials = some creds) (r : Request) :
    (c.headersFor r).run w ⟨st, past⟩ =
      (c.headersAt creds r (UInt64.ofNat (w.clock past).toNat), ⟨st, past ++ [.clockRead]⟩) := by
  rw [headersFor, run_bind, run_requireCredentials h]
  dsimp only
  rw [run_bind, run_now]
  dsimp only
  rw [run_bind, run_ofExcept, headersAt]
  cases Auth.traderHeaders c.address creds r.method.name r.path r.body _ with
  | error e => rfl
  | ok own =>
    dsimp only
    rw [ok_bind]
    cases c.builder with
    | none => rfl
    | some b =>
      dsimp only
      rw [run_bind, run_ofExcept]
      cases Auth.builderHeaders b r.method.name r.path r.body _ with
      | error e => rfl
      | ok other => rfl

/-! ### One request -/

theorem run_fetchSigned_none (h : st.credentials = none) (r : Request) (read : Json → Option α) :
    (c.fetchSigned r read).run w ⟨st, past⟩ = (.error (.auth .noCredentials), ⟨st, past⟩) := by
  rw [fetchSigned, run_bind, headersFor, run_bind, run_requireCredentials_none h]

theorem run_fetchSigned (h : st.credentials = some creds)
    (hs : c.signedAt creds w past r = .ok s) (read : Json → Option α) :
    (c.fetchSigned r read).run w ⟨st, past⟩ =
      (w.reply read (past ++ [.clockRead]) s, ⟨st, past ++ [.clockRead, .sent s]⟩) := by
  obtain ⟨headers, hheaders, rfl⟩ := map_eq_ok.1 hs
  rw [fetchSigned, run_bind, run_headersFor h, hheaders]
  dsimp only
  rw [run_fetch, List.append_assoc]
  rfl

theorem run_fetchSigned_error {e : Error} (h : st.credentials = some creds)
    (he : c.signedAt creds w past r = .error e) (read : Json → Option α) :
    (c.fetchSigned r read).run w ⟨st, past⟩ = (.error e, ⟨st, past ++ [.clockRead]⟩) := by
  have hheaders := map_eq_error.1 he
  rw [fetchSigned, run_bind, run_headersFor h, hheaders]

end Exchange.Client
end TradingDesk
