import TradingDesk.Exchange.Client
import TradingDesk.Proofs.Json.Record
import TradingDesk.Proofs.Market.Rounding
import TradingDesk.Proofs.Session

/-! What the service tells of a market. A parameter `p` of a token is asked for at `p.path`, and an
answer that reports a success tells its value if the body has it in the member `p.member`. Every
other answer is a failure: a refusal, a body that is not read as the record it should be, or, for
the tick, a value that is none of the ticks. -/

namespace TradingDesk

/-! ### Texts of ticks -/

namespace Tick

variable {text : String} {x : Decimal} {t : Tick}

/-- `text`, without the blanks around it, is a decimal of the value of `t`. -/
def Spells (text : String) (t : Tick) : Prop :=
  ∃ x, Decimal.parse (Text.trim text) = .ok x ∧ x.toRat = 1 / 10 ^ t.places

/-- Why `text` spells no tick: it is no decimal, or a decimal of another value. -/
inductive Misspelt (text : String) : ReadError → Prop
  | unreadable {cause : Decimal.ParseError} (h : Decimal.parse (Text.trim text) = .error cause) :
    Misspelt text (.unreadable text cause)
  | unsupported {x : Decimal} (h : Decimal.parse (Text.trim text) = .ok x)
    (hx : ∀ t : Tick, x.toRat ≠ 1 / 10 ^ t.places) : Misspelt text (.unsupported x)

theorem value_eq_normalize_iff : t.value = x.normalize ↔ x.toRat = 1 / 10 ^ t.places := by
  have hvalue : t.value.normalize = t.value := by cases t <;> decide
  rw [← hvalue, Decimal.normalize_eq_iff, toRat_value]
  exact eq_comm

theorem ofDecimal_eq_ok : ofDecimal x = .ok t ↔ x.toRat = 1 / 10 ^ t.places := by
  rw [← value_eq_normalize_iff, ofDecimal]
  constructor
  · intro h
    split at h
    · rename_i u hu
      cases h
      simpa using List.find?_some hu
    · cases h
  · intro h
    rw [← h]
    cases t <;> rfl

theorem ofDecimal_eq_error {e : ReadError} :
    ofDecimal x = .error e ↔ e = .unsupported x ∧ ∀ t : Tick, x.toRat ≠ 1 / 10 ^ t.places := by
  cases h : ofDecimal x with
  | ok t =>
    simp only [reduceCtorEq, false_iff, not_and, not_forall, not_not]
    exact fun _ => ⟨t, ofDecimal_eq_ok.1 h⟩
  | error cause =>
    have hnone : ∀ t : Tick, x.toRat ≠ 1 / 10 ^ t.places := fun t ht => by
      rw [ofDecimal_eq_ok.2 ht] at h
      cases h
    have hcause : cause = .unsupported x := by
      rw [ofDecimal] at h
      split at h
      · cases h
      · exact (Except.error.inj h).symm
    rw [hcause, Except.error.injEq]
    exact ⟨fun he => ⟨he.symm, hnone⟩, fun he => he.1.symm⟩

theorem parse_eq_ok : parse text = .ok t ↔ Spells text t := by
  rw [parse, Spells]
  cases Decimal.parse (Text.trim text) with
  | ok x => simp [ofDecimal_eq_ok]
  | error cause => simp

theorem parse_eq_error {e : ReadError} : parse text = .error e ↔ Misspelt text e := by
  rw [parse]
  cases h : Decimal.parse (Text.trim text) with
  | ok x =>
    dsimp only
    rw [ofDecimal_eq_error]
    constructor
    · rintro ⟨rfl, hx⟩
      exact .unsupported h hx
    · rintro (⟨h'⟩ | ⟨h', hx⟩)
      · cases h.symm.trans h'
      · cases h.symm.trans h'
        exact ⟨rfl, hx⟩
  | error cause =>
    constructor
    · rintro ⟨⟩
      exact .unreadable h
    · rintro (⟨h'⟩ | ⟨h', -⟩)
      · cases h.symm.trans h'
        rfl
      · cases h.symm.trans h'

end Tick

/-! ### Questions and answers -/

namespace Parameter

/-- Where the service is asked for the parameter: each has a path of its own. -/
def path : Parameter → String
  | tick => "/tick-size"
  | negRisk => "/neg-risk"
  | feeRate => "/fee-rate"

/-- The name that the value of a parameter has in an answer. -/
def member : Parameter → String
  | tick => "minimum_tick_size"
  | negRisk => "neg_risk"
  | feeRate => "base_fee"

/-- The question about the parameter `p` of the market of `token`. -/
def inquiry (p : Parameter) (token : String) : Request where
  method := .get
  path := p.path
  query := [("token_id", token)]

/-- The body is a record in which the member of `p` is `field`; it is missing if that is `none`. -/
def Carries (p : Parameter) (body : Bytes) (field : Option Json) : Prop :=
  ∃ j, Json.parse? body = some j ∧ j.fields? [p.member] = some [field]

/-- The text of a `number` or of a `string`. -/
def scalar? : Json → Option String
  | .number n => some (Json.numberText n)
  | .string s => some s
  | _ => none

/-- The body gives `v` for the parameter. A tick is a number or a string, a flag is a Boolean, and a
fee is a whole number of 64 bits, which is zero where it is missing. -/
def Gives (body : Bytes) : (p : Parameter) → p.Value → Prop
  | tick, t => ∃ j text, Carries .tick body (some j) ∧ scalar? j = some text ∧ t.Spells text
  | negRisk, b => Carries .negRisk body (some (.bool b))
  | feeRate, n =>
    Carries .feeRate body (some (.number (.nat n.toNat))) ∨ Carries .feeRate body none ∧ n = 0

/-- The `body` is decoded for the parameter. For `tick` any value will do that can be read and has
no more than 126 brackets around anything. -/
def Decodes (body : Bytes) : Parameter → Prop
  | tick => ∃ j, Carries .tick body (some j) ∧ j.readable = true ∧ j.depth ≤ 126
  | negRisk => ∃ b, Gives body .negRisk b
  | feeRate => ∃ n, Gives body .feeRate n

/-- The answer `r` tells nothing of the parameter, and the error is the reason. -/
inductive Fails (r : Response) : Parameter → Error → Prop
  | refused {p : Parameter} (h : ¬ (200 ≤ r.status ∧ r.status < 300)) :
    Fails r p (.ofRefusal r.status r.body)
  | undecoded {p : Parameter} (h : 200 ≤ r.status ∧ r.status < 300) (hbody : ¬ Decodes r.body p) :
    Fails r p .unreadable
  | noScalar {j : Json} (h : 200 ≤ r.status ∧ r.status < 300)
    (hj : Carries .tick r.body (some j)) (hreadable : j.readable = true) (hdepth : j.depth ≤ 126)
    (hscalar : scalar? j = none) : Fails r .tick (.invalid (.tickValue j.sorted))
  | unsupported {j : Json} {text : String} {cause : Tick.ReadError}
    (h : 200 ≤ r.status ∧ r.status < 300) (hj : Carries .tick r.body (some j))
    (hscalar : scalar? j = some text) (hcause : Tick.Misspelt text cause) :
    Fails r .tick (.invalid (.tick cause))

end Parameter

namespace World

/-- To the question about `p` that follows the events `past`, the service `w` answers with a success
whose body gives `v`. -/
def Tells (w : World) (past : List Event) (token : String) (p : Parameter) (v : p.Value) : Prop :=
  ∃ r, w.respond past (p.inquiry token) = .ok r ∧ (200 ≤ r.status ∧ r.status < 300) ∧
    p.Gives r.body v

/-- That question is not answered, for the reason `e`, or its answer fails for that reason. -/
def Withholds (w : World) (past : List Event) (token : String) (p : Parameter) (e : Error) : Prop :=
  w.respond past (p.inquiry token) = .error e ∨
    ∃ r, w.respond past (p.inquiry token) = .ok r ∧ p.Fails r e

end World

namespace Parameter

/-- What `read` makes of the only member of a record. -/
def only {α : Type} (read : Option Json → Option α) : List (Option Json) → Option α
  | [field] => read field
  | _ => none

theorem bind_only_eq_some {α : Type} {p : Parameter} {body : Bytes} {read : Option Json → Option α}
    {a : α} : (Json.parse? body >>= fun j => j.fields? [p.member] >>= only read) = some a ↔
      ∃ field, p.Carries body field ∧ read field = some a := by
  simp only [Option.bind_eq_bind, Option.bind_eq_some_iff]
  constructor
  · rintro ⟨j, hj, fields, hfields, hread⟩
    unfold only at hread
    split at hread
    · exact ⟨_, ⟨j, hj, hfields⟩, hread⟩
    · cases hread
  · rintro ⟨field, ⟨j, hj, hfield⟩, hread⟩
    exact ⟨j, hj, [field], hfield, hread⟩

end Parameter

namespace Exchange.Client

open Parameter

variable {p : Parameter} {r : Response} {token : String} {w : World} {past : List Event} {e : Error}

/-! ### Reading a tick -/

theorem tickValue?_eq : tickValue? = fun j =>
    j.fields? [Parameter.tick.member] >>= only (Json.required (Json.valueWithin? 126)) := rfl

theorem decode_tickValue?_eq_some {body : Bytes} {v : Json} :
    (Json.parse? body >>= tickValue?) = some v ↔ ∃ j, Carries .tick body (some j) ∧
      (j.readable = true ∧ j.depth ≤ 126) ∧ j.sorted = v := by
  rw [tickValue?_eq, bind_only_eq_some]
  constructor
  · rintro ⟨_ | j, hj, hread⟩
    · cases hread
    · rw [Json.required, Option.bind_some, Json.valueWithin?] at hread
      split_ifs at hread with hlimit
      exact ⟨j, hj, by simpa using hlimit, Option.some.inj hread⟩
  · rintro ⟨j, hj, hlimit, rfl⟩
    refine ⟨some j, hj, ?_⟩
    rw [Json.required, Option.bind_some, Json.valueWithin?, if_pos (by simpa using hlimit)]

theorem readTick_eq (j : Json) : readTick j = match scalar? j with
    | some text => (Tick.parse text).mapError fun cause => .invalid (.tick cause)
    | none => .error (.invalid (.tickValue j)) := by
  cases j <;> rfl

/-- A number or a string `j` is read as it is. -/
theorem of_scalar? {j : Json} {text : String} (h : scalar? j = some text) :
    (j.readable = true ∧ j.depth ≤ 126) ∧ j.sorted = j := by
  cases j with
  | number n => exact ⟨⟨rfl, Nat.zero_le _⟩, rfl⟩
  | string s => exact ⟨⟨rfl, Nat.zero_le _⟩, rfl⟩
  | _ => cases h

theorem scalar?_sorted (j : Json) : scalar? j.sorted = scalar? j := by
  cases j <;> rfl

theorem readTick_sorted_eq_ok {j : Json} {t : Tick} :
    readTick j.sorted = .ok t ↔ ∃ text, scalar? j = some text ∧ t.Spells text := by
  rw [readTick_eq, scalar?_sorted]
  cases scalar? j with
  | none => simp
  | some text => simp [mapError_eq_ok, Tick.parse_eq_ok]

theorem readTick_sorted_eq_error {j : Json} : readTick j.sorted = .error e ↔
    scalar? j = none ∧ e = .invalid (.tickValue j.sorted) ∨
    ∃ text cause, scalar? j = some text ∧ Tick.Misspelt text cause ∧
      e = .invalid (.tick cause) := by
  rw [readTick_eq, scalar?_sorted]
  cases scalar? j with
  | none => simp [eq_comm]
  | some text =>
    dsimp only
    rw [mapError_eq_error]
    simp [← Tick.parse_eq_error, eq_comm]

/-! ### Reading an answer -/

theorem decode_negRisk?_eq_some {body : Bytes} {b : Bool} :
    (Json.parse? body >>= negRisk?) = some b ↔ Gives body .negRisk b := by
  have honly : negRisk? = fun j =>
    j.fields? [Parameter.negRisk.member] >>= only (Json.required Json.bool?) := rfl
  have hbool : ∀ field, Json.required Json.bool? field = some b ↔ field = some (.bool b) := by
    rintro (_ | j)
    · simp [Json.required]
    · cases j <;> simp [Json.required, Json.bool?]
  rw [honly, bind_only_eq_some]
  simp only [hbool, exists_eq_right]
  rfl

theorem decode_feeRate?_eq_some {body : Bytes} {n : UInt64} :
    (Json.parse? body >>= feeRate?) = some n ↔ Gives body .feeRate n := by
  have honly : feeRate? = fun j =>
    j.fields? [Parameter.feeRate.member] >>= only (Json.withDefault 0 Json.word64?) := rfl
  have hword : ∀ field, Json.withDefault 0 Json.word64? field = some n ↔
      field = some (.number (.nat n.toNat)) ∨ field = none ∧ n = 0 := by
    rintro (_ | j)
    · simp [Json.withDefault, eq_comm]
    · simp [Json.withDefault, Json.word64?_eq_some, Json.ofWord64, Json.ofNat]
  rw [honly, bind_only_eq_some]
  simp only [hword, and_or_left, exists_or, exists_eq_right, ← and_assoc, exists_and_right]
  rfl

theorem readAnswer_eq_ok {v : p.Value} :
    readAnswer p r = .ok v ↔ (200 ≤ r.status ∧ r.status < 300) ∧ p.Gives r.body v := by
  cases p with
  | tick =>
    rw [readAnswer, bind_eq_ok]
    simp only [Session.decode_eq_ok, decode_tickValue?_eq_some]
    constructor
    · rintro ⟨_, ⟨hstatus, j, hj, -, rfl⟩, hread⟩
      obtain ⟨text, htext, hspells⟩ := readTick_sorted_eq_ok.1 hread
      exact ⟨hstatus, j, text, hj, htext, hspells⟩
    · rintro ⟨hstatus, j, text, hj, htext, hspells⟩
      exact ⟨_, ⟨hstatus, j, hj, (of_scalar? htext).1, rfl⟩,
        readTick_sorted_eq_ok.2 ⟨text, htext, hspells⟩⟩
  | negRisk => rw [readAnswer, Session.decode_eq_ok, decode_negRisk?_eq_some]
  | feeRate => rw [readAnswer, Session.decode_eq_ok, decode_feeRate?_eq_some]

/-- `read` fails on what cannot be decoded for `p`, and on nothing else. -/
theorem decode_eq_error_iff {α : Type} {read : Json → Option α}
    (h : p.Decodes r.body ↔ ∃ a, (Json.parse? r.body >>= read) = some a) :
    r.decode read = .error e ↔
      ¬ (200 ≤ r.status ∧ r.status < 300) ∧ e = .ofRefusal r.status r.body ∨
      (200 ≤ r.status ∧ r.status < 300) ∧ ¬ p.Decodes r.body ∧ e = .unreadable := by
  rw [Session.decode_eq_error, h, ← Option.isSome_iff_exists, Option.not_isSome_iff_eq_none]

/-- Only a `tick` is made sense of after its body is decoded. -/
theorem fails_iff_of_ne_tick (hp : p ≠ .tick) : p.Fails r e ↔
    ¬ (200 ≤ r.status ∧ r.status < 300) ∧ e = .ofRefusal r.status r.body ∨
    (200 ≤ r.status ∧ r.status < 300) ∧ ¬ p.Decodes r.body ∧ e = .unreadable := by
  constructor
  · rintro (hstatus | ⟨hstatus, hbody⟩ | _ | _)
    · exact .inl ⟨hstatus, rfl⟩
    · exact .inr ⟨hstatus, hbody, rfl⟩
    · exact absurd rfl hp
    · exact absurd rfl hp
  · rintro (⟨hstatus, rfl⟩ | ⟨hstatus, hbody, rfl⟩)
    · exact .refused hstatus
    · exact .undecoded hstatus hbody

theorem readAnswer_eq_error : readAnswer p r = .error e ↔ p.Fails r e := by
  cases p with
  | tick =>
    have hdecodes : Decodes r.body .tick ↔ ∃ v, (Json.parse? r.body >>= tickValue?) = some v := by
      simp only [decode_tickValue?_eq_some]
      constructor
      · rintro ⟨j, hj, hreadable, hdepth⟩
        exact ⟨_, j, hj, ⟨hreadable, hdepth⟩, rfl⟩
      · rintro ⟨_, j, hj, hlimit, -⟩
        exact ⟨j, hj, hlimit⟩
    rw [readAnswer, bind_eq_error, decode_eq_error_iff hdecodes]
    simp only [Session.decode_eq_ok, decode_tickValue?_eq_some]
    constructor
    · rintro ((⟨hstatus, rfl⟩ | ⟨hstatus, hbody, rfl⟩) | ⟨_, ⟨hstatus, j, hj, hlimit, rfl⟩, hread⟩)
      · exact .refused hstatus
      · exact .undecoded hstatus hbody
      · obtain ⟨hnone, rfl⟩ | ⟨text, cause, htext, hcause, rfl⟩ := readTick_sorted_eq_error.1 hread
        · exact .noScalar hstatus hj hlimit.1 hlimit.2 hnone
        · exact .unsupported hstatus hj htext hcause
    · rintro (hstatus | ⟨hstatus, hbody⟩ | ⟨hstatus, hj, hreadable, hdepth, hnone⟩ |
        ⟨hstatus, hj, htext, hcause⟩)
      · exact .inl (.inl ⟨hstatus, rfl⟩)
      · exact .inl (.inr ⟨hstatus, hbody, rfl⟩)
      · exact .inr ⟨_, ⟨hstatus, _, hj, ⟨hreadable, hdepth⟩, rfl⟩,
          readTick_sorted_eq_error.2 (.inl ⟨hnone, rfl⟩)⟩
      · exact .inr ⟨_, ⟨hstatus, _, hj, (of_scalar? htext).1, rfl⟩,
          readTick_sorted_eq_error.2 (.inr ⟨_, _, htext, hcause, rfl⟩)⟩
  | negRisk =>
    have hdecodes : Decodes r.body .negRisk ↔ ∃ b, (Json.parse? r.body >>= negRisk?) = some b := by
      simp only [decode_negRisk?_eq_some]
      rfl
    rw [readAnswer, decode_eq_error_iff hdecodes, fails_iff_of_ne_tick (by decide)]
  | feeRate =>
    have hdecodes : Decodes r.body .feeRate ↔ ∃ n, (Json.parse? r.body >>= feeRate?) = some n := by
      simp only [decode_feeRate?_eq_some]
      rfl
    rw [readAnswer, decode_eq_error_iff hdecodes, fails_iff_of_ne_tick (by decide)]

/-! ### What is told -/

/-- What comes of asking about `p` after the events `past`. -/
def answer (w : World) (past : List Event) (p : Parameter) (token : String) :
    Except Error p.Value := do
  readAnswer p (← w.respond past (p.inquiry token))

theorem answer_eq_ok {v : p.Value} : answer w past p token = .ok v ↔ w.Tells past token p v := by
  rw [answer, bind_eq_ok]
  simp only [readAnswer_eq_ok]
  rfl

theorem answer_eq_error : answer w past p token = .error e ↔ w.Withholds past token p e := by
  rw [answer, bind_eq_error]
  simp only [readAnswer_eq_error]
  rfl

end Exchange.Client

namespace World.Tells

open Exchange.Client

variable {w : World} {past : List Event} {token : String} {p : Parameter} {v u : p.Value}
  {e : Error}

theorem unique (h : w.Tells past token p v) (h' : w.Tells past token p u) : v = u :=
  Except.ok.inj ((answer_eq_ok.2 h).symm.trans (answer_eq_ok.2 h'))

theorem not_withholds (h : w.Tells past token p v) : ¬ w.Withholds past token p e := by
  intro h'
  cases (answer_eq_ok.2 h).symm.trans (answer_eq_error.2 h')

end World.Tells

end TradingDesk
