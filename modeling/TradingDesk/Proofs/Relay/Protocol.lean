import TradingDesk.Proofs.Relay.Submission

/-! What goes before a submission. An operation puts its questions, one after the other, asks for
one signature if the answers allow it, and submits if the signature will do. Whatever fails first
ends it: the failure is returned and nothing more is sent. -/

namespace TradingDesk

open Session Json

variable {σ α : Type}

/-! ### First failures -/

section Outcomes

variable (outcome : List Event → Event → Except Error Unit)

/-- Each of the events that follow `past` comes to something. -/
def Passes : List Event → List Event → Prop
  | _, [] => True
  | past, e :: later => outcome past e = .ok () ∧ Passes (past ++ [e]) later

/-- The first of the events that comes to nothing, by `outcome`, is the last one, and the `result`
is its failure. Where all come to something the `result` is a success. -/
def EndsAtFault (result : Except Error α) : List Event → List Event → Prop
  | _, [] => ∃ a, result = .ok a
  | past, e :: later =>
    match outcome past e with
    | .ok () => EndsAtFault result (past ++ [e]) later
    | .error err => later = [] ∧ result = .error err

variable {outcome} {past front later : List Event} {e : Event} {err : Error}
  {result : Except Error α}

theorem endsAtFault_of_ok (h : outcome past e = .ok ()) :
    EndsAtFault outcome result past (e :: later) ↔
      EndsAtFault outcome result (past ++ [e]) later := by
  rw [EndsAtFault, h]

theorem endsAtFault_singleton (h : outcome past e = result.map fun _ => ()) :
    EndsAtFault outcome result past [e] := by
  rw [EndsAtFault, h]
  cases result with
  | ok a => exact ⟨a, rfl⟩
  | error err => exact ⟨rfl, rfl⟩

theorem endsAtFault_append (h : Passes outcome past front) :
    EndsAtFault outcome result past (front ++ later) ↔
      EndsAtFault outcome result (past ++ front) later := by
  induction front generalizing past with
  | nil => rw [List.nil_append, List.append_nil]
  | cons e front ih =>
    rw [List.cons_append, endsAtFault_of_ok h.1, ih h.2, List.append_assoc, List.singleton_append]

end Outcomes

def Event.isSigning : Event → Bool
  | .asked _ _ => true
  | _ => false

def Event.isSubmission : Event → Bool
  | .sent r => r.path = "/submit"
  | _ => false

/-- There is one way to part a list at its only element with `f`. -/
theorem split_eq {f : α → Bool} {front later before after : List α} {a b : α} (hb : f b)
    (hfront : ∀ x ∈ front, f x = false) (hlater : ∀ x ∈ later, f x = false)
    (h : front ++ a :: later = before ++ b :: after) : before = front ∧ b = a ∧ after = later := by
  rcases List.append_eq_append_iff.1 h with ⟨l, rfl, hl⟩ | ⟨l, rfl, hl⟩
  · cases l with
    | nil =>
      obtain ⟨rfl, rfl⟩ := List.cons.inj hl
      exact ⟨List.append_nil _, rfl, rfl⟩
    | cons x l =>
      obtain ⟨rfl, rfl⟩ := List.cons.inj hl
      have := hlater b (by simp)
      simp_all
  · cases l with
    | nil =>
      obtain ⟨rfl, rfl⟩ := List.cons.inj hl
      exact ⟨(List.append_nil _).symm, rfl, rfl⟩
    | cons x l =>
      obtain ⟨rfl, rfl⟩ := List.cons.inj hl
      have := hfront b (by simp)
      simp_all

namespace Relay

/-! ### Protocols -/

/-- What an operation makes of its answers, and what it may sign and submit. -/
structure Protocol where
  questions : List Request
  path_ne : ∀ q ∈ questions, q.path ≠ "/submit"
  found : Bool → Except Error Unit
  counted : Word → Except Error Unit
  pack : Signature → Except Error String
  /-- After the events `past` the answers to the questions allow this digest to be signed. -/
  Ready : World → List Event → Word → Prop
  Approved : Bytes → Prop

namespace Client

variable (c : Client)

def deploymentQuestion : Request := .get "/deployed" [("address", (c.safeOf c.signer).checksummed)]

def nonceQuestion (owner : Address) (kind : Kind) : Request :=
  .get "/nonce" [("address", owner.checksummed), ("type", kind.name)]

theorem deploymentQuestion_path : c.deploymentQuestion.path = "/deployed" := rfl

theorem nonceQuestion_path (owner : Address) (kind : Kind) :
    (nonceQuestion owner kind).path = "/nonce" := rfl

def deploymentAnswer (w : World) (past : List Event) : Except Error Bool := do
  (← w.respond past c.deploymentQuestion).decode deployed?

def nonceText (owner : Address) (kind : Kind) (w : World) (past : List Event) :
    Except Error String := do
  (← w.respond past (nonceQuestion owner kind)).decode nonceText?

def nonceAnswer (owner : Address) (kind : Kind) (w : World) (past : List Event) :
    Except Error Word := do
  readNonce (← nonceText owner kind w past)

/-- The signature of `digest` in the form in which `p` submits it. -/
def signatureAnswer (p : Protocol) (w : World) (past : List Event) (signer : Address)
    (digest : Word) : Except Error String := do
  p.pack (← (Signature.ofBytes (← w.sign past signer digest)).mapError .signing)

def secretAnswer : Except Error Bytes := do
  let b ← c.requireBuilder
  (RequestSignature.decodeSecret b.secret).mapError fun e => .auth (.secret e)

def submissionAnswer (w : World) (past : List Event) (r : Request) : Except Error Receipt := do
  (← w.respond past r).decode Receipt.ofJson?

/-- What an event after `past` comes to: a question to an answer with which the operation can go on,
a request for a signature to one that will do, and the time to headers for the submission. -/
def outcome (p : Protocol) (w : World) (past : List Event) : Event → Except Error Unit
  | .sent r =>
    if r = c.deploymentQuestion then do p.found (← c.deploymentAnswer w past)
    else if r = nonceQuestion c.signer .safe then do
      p.counted (← nonceAnswer c.signer .safe w past)
    else (submissionAnswer w past r).map fun _ => ()
  | .asked signer digest => (signatureAnswer p w past signer digest).map fun _ => ()
  | .clockRead => c.secretAnswer.map fun _ => ()
  | .saltDrawn => .ok ()

/-- The body of `r` is for the Safe of the signer. -/
def ForSafe (r : Request) : Prop :=
  ∃ body j, r.body = some body ∧ ofBody? body = some j ∧
    j.textAt? "proxyWallet" = some (c.safeOf c.signer).checksummed

/-- The operation that `added` these events keeps to its protocol `p`. -/
structure InTurn (p : Protocol) (w : World) (past added : List Event)
    (result : Except Error Receipt) : Prop where
  requests : ∃ r, r.method = .post ∧ r.path = "/submit" ∧ sent added <+: p.questions ++ [r]
  signings : added.countP Event.isSigning ≤ 1
  signing : ∀ before signer digest later, added = before ++ .asked signer digest :: later →
    signer = c.signer ∧ before = p.questions.map .sent ∧ p.Ready w past digest
  submission : ∀ before r later, added = before ++ .sent r :: later → r.path = "/submit" →
    later = [] ∧ c.ForSafe r ∧ ∃ digest bs,
      before = p.questions.map .sent ++ [.asked c.signer digest, .clockRead] ∧
      p.Ready w past digest ∧
      w.sign (past ++ p.questions.map .sent) c.signer digest = .ok bs ∧ bs.length = 65 ∧
      p.Approved bs
  ends : EndsAtFault (c.outcome p w) result past added
  completed : ∀ receipt, result = .ok receipt → ∃ before r, added = before ++ [.sent r] ∧
    r.path = "/submit" ∧ submissionAnswer w (past ++ before) r = .ok receipt

/-! ### The courses that an operation can take -/

/-- The course of an operation from the request for a signature of `digest` on. -/
inductive Submitting (p : Protocol) (w : World) (past : List Event) (digest : Word) :
    List Event → Except Error Receipt → Prop
  | unsigned {e : Error} (h : c.outcome p w past (.asked c.signer digest) = .error e) :
    Submitting p w past digest [.asked c.signer digest] (.error e)
  | unvouched {e : Error} (hasked : c.outcome p w past (.asked c.signer digest) = .ok ())
    (h : c.outcome p w (past ++ [.asked c.signer digest]) .clockRead = .error e) :
    Submitting p w past digest [.asked c.signer digest, .clockRead] (.error e)
  | submitted {r : Request} {bs : Bytes}
    (hsign : w.sign past c.signer digest = .ok bs) (hlength : bs.length = 65)
    (happroved : p.Approved bs)
    (hpasses : Passes (c.outcome p w) past [.asked c.signer digest, .clockRead])
    (hmethod : r.method = .post) (hpath : r.path = "/submit") (hbody : c.ForSafe r) :
    Submitting p w past digest [.asked c.signer digest, .clockRead, .sent r]
      (submissionAnswer w (past ++ [.asked c.signer digest, .clockRead]) r)

/-- The course of an operation from its first question on, after the events `past`. -/
inductive Course (p : Protocol) (w : World) (past : List Event) :
    List Event → Except Error Receipt → Prop
  | halted (front later : List Request) {q : Request} {e : Error}
    (hquestions : p.questions = front ++ q :: later)
    (hfront : Passes (c.outcome p w) past (front.map .sent))
    (h : c.outcome p w (past ++ front.map .sent) (.sent q) = .error e) :
    Course p w past (front.map .sent ++ [.sent q]) (.error e)
  | ready {digest : Word} {added : List Event} {result : Except Error Receipt}
    (hpasses : Passes (c.outcome p w) past (p.questions.map .sent))
    (hready : p.Ready w past digest)
    (h : c.Submitting p w (past ++ p.questions.map .sent) digest added result) :
    Course p w past (p.questions.map .sent ++ added) result

variable {c} {p : Protocol} {w : World} {past added : List Event} {digest : Word}
  {result : Except Error Receipt}

theorem outcome_submission {r : Request} (h : r.path = "/submit") :
    c.outcome p w past (.sent r) = (submissionAnswer w past r).map fun _ => () := by
  have hdeployment : r ≠ c.deploymentQuestion := by
    rintro rfl
    exact absurd (c.deploymentQuestion_path.symm.trans h) (by decide)
  have hnonce : r ≠ nonceQuestion c.signer .safe := by
    rintro rfl
    exact absurd ((nonceQuestion_path _ _).symm.trans h) (by decide)
  rw [outcome, if_neg hdeployment, if_neg hnonce]

theorem Submitting.ends (h : c.Submitting p w past digest added result) :
    EndsAtFault (c.outcome p w) result past added := by
  cases h with
  | unsigned h => exact endsAtFault_singleton h
  | unvouched hasked h => exact (endsAtFault_of_ok hasked).2 (endsAtFault_singleton h)
  | submitted _ _ _ hpasses _ hpath =>
    exact (endsAtFault_append hpasses).2 (endsAtFault_singleton (outcome_submission hpath))

theorem Course.ends (h : c.Course p w past added result) :
    EndsAtFault (c.outcome p w) result past added := by
  cases h with
  | halted _ _ _ hfront h => exact (endsAtFault_append hfront).2 (endsAtFault_singleton h)
  | ready hpasses _ h => exact (endsAtFault_append hpasses).2 h.ends

theorem Submitting.sent_prefix (h : c.Submitting p w past digest added result) :
    ∃ r, r.method = .post ∧ r.path = "/submit" ∧ sent added <+: [r] := by
  cases h with
  | unsigned h => exact ⟨.post "/submit" "", rfl, rfl, List.nil_prefix⟩
  | unvouched hasked h => exact ⟨.post "/submit" "", rfl, rfl, List.nil_prefix⟩
  | submitted _ _ _ _ hmethod hpath => exact ⟨_, hmethod, hpath, List.prefix_rfl⟩

theorem Course.sent_prefix (h : c.Course p w past added result) :
    ∃ r, r.method = .post ∧ r.path = "/submit" ∧ sent added <+: p.questions ++ [r] := by
  cases h with
  | halted front later hquestions hfront h =>
    refine ⟨.post "/submit" "", rfl, rfl, ?_⟩
    rw [hquestions]
    simp [sent]
  | ready hpasses hready h =>
    obtain ⟨r, hmethod, hpath, hsent⟩ := h.sent_prefix
    refine ⟨r, hmethod, hpath, ?_⟩
    rwa [sent_append, sent_map, List.prefix_append_right_inj]

/-- Only the first event of `added` is a request for a signature. -/
theorem Submitting.exists_asked (h : c.Submitting p w past digest added result) :
    ∃ later, added = .asked c.signer digest :: later ∧ ∀ e ∈ later, e.isSigning = false := by
  cases h with
  | unsigned h => exact ⟨_, rfl, by simp⟩
  | unvouched hasked h => exact ⟨_, rfl, by simp [Event.isSigning]⟩
  | submitted => exact ⟨_, rfl, by simp [Event.isSigning]⟩

theorem Course.signings (h : c.Course p w past added result) :
    added.countP Event.isSigning ≤ 1 := by
  cases h with
  | halted front later hquestions hfront h =>
    simp [List.countP_map, Function.comp_def, Event.isSigning]
  | ready hpasses hready h =>
    obtain ⟨later, rfl, hlater⟩ := h.exists_asked
    have hnone : later.countP Event.isSigning = 0 := List.countP_eq_zero.2 (by simpa using hlater)
    simp [List.countP_map, Function.comp_def, Event.isSigning, List.countP_cons, hnone]

theorem Course.signing (h : c.Course p w past added result) {before later : List Event}
    {signer : Address} {d : Word} (hadded : added = before ++ .asked signer d :: later) :
    signer = c.signer ∧ before = p.questions.map .sent ∧ p.Ready w past d := by
  have hquestions : ∀ rs : List Request, ∀ e ∈ rs.map Event.sent, e.isSigning = false := by
    simp [Event.isSigning]
  cases h with
  | halted front rest hquestions hfront h =>
    have hmem : Event.asked signer d ∈ before ++ .asked signer d :: later := by simp
    rw [← hadded] at hmem
    simp at hmem
  | ready hpasses hready h =>
    obtain ⟨rest, rfl, hrest⟩ := h.exists_asked
    obtain ⟨rfl, heq, -⟩ := split_eq (f := Event.isSigning) rfl (hquestions _) hrest hadded
    cases heq
    exact ⟨rfl, rfl, hready⟩

theorem isSubmission_questions (p : Protocol) :
    ∀ e ∈ p.questions.map Event.sent, e.isSubmission = false := by
  simpa [Event.isSubmission] using p.path_ne

/-- A course that does not end with the submission has none in `added`, and fails. -/
theorem Course.unsubmitted_or (h : c.Course p w past added result) :
    (∀ e ∈ added, e.isSubmission = false) ∧ (∃ e, result = .error e) ∨
    ∃ digest bs r,
      added = p.questions.map .sent ++ [.asked c.signer digest, .clockRead] ++ [.sent r] ∧
      p.Ready w past digest ∧
      w.sign (past ++ p.questions.map .sent) c.signer digest = .ok bs ∧ bs.length = 65 ∧
      p.Approved bs ∧ r.path = "/submit" ∧ c.ForSafe r ∧
      result = submissionAnswer w
        (past ++ (p.questions.map .sent ++ [.asked c.signer digest, .clockRead])) r := by
  have hquestions := isSubmission_questions p
  cases h with
  | halted front later hq hfront h =>
    rw [hq] at hquestions
    refine .inl ⟨fun e he => hquestions e ?_, _, rfl⟩
    simp only [List.map_append, List.map_cons, List.mem_append, List.mem_cons] at he ⊢
    tauto
  | ready hpasses hready h =>
    cases h with
    | unsigned h =>
      refine .inl ⟨List.forall_mem_append.2 ⟨hquestions, ?_⟩, _, rfl⟩
      simp [Event.isSubmission]
    | unvouched hasked h =>
      refine .inl ⟨List.forall_mem_append.2 ⟨hquestions, ?_⟩, _, rfl⟩
      simp [Event.isSubmission]
    | submitted hsign hlength happroved _ _ hpath hbody =>
      refine .inr ⟨_, _, _, ?_, hready, hsign, hlength, happroved, hpath, hbody, ?_⟩
      · simp
      · rw [List.append_assoc]

theorem Course.submission (h : c.Course p w past added result) {before later : List Event}
    {r : Request} (hadded : added = before ++ .sent r :: later) (hpath : r.path = "/submit") :
    later = [] ∧ c.ForSafe r ∧ ∃ digest bs,
      before = p.questions.map .sent ++ [.asked c.signer digest, .clockRead] ∧
      p.Ready w past digest ∧
      w.sign (past ++ p.questions.map .sent) c.signer digest = .ok bs ∧ bs.length = 65 ∧
      p.Approved bs := by
  have hr : (Event.sent r).isSubmission := by simpa [Event.isSubmission] using hpath
  rcases h.unsubmitted_or with ⟨hnone, -⟩ |
    ⟨digest, bs, s, hcourse, hready, hsign, hlength, happroved, -, hbody, -⟩
  · have hfalse := hnone (.sent r) (by simp [hadded])
    rw [hr] at hfalse
    cases hfalse
  · have hfront : ∀ e ∈ p.questions.map Event.sent ++ [.asked c.signer digest, .clockRead],
        e.isSubmission = false :=
      List.forall_mem_append.2 ⟨isSubmission_questions p, by simp [Event.isSubmission]⟩
    obtain ⟨rfl, heq, rfl⟩ := split_eq hr hfront (by simp) (hcourse.symm.trans hadded)
    cases heq
    exact ⟨rfl, hbody, digest, bs, rfl, hready, hsign, hlength, happroved⟩

theorem Course.completed (h : c.Course p w past added result) {receipt : Receipt}
    (hresult : result = .ok receipt) : ∃ before r, added = before ++ [.sent r] ∧
      r.path = "/submit" ∧ submissionAnswer w (past ++ before) r = .ok receipt := by
  rcases h.unsubmitted_or with ⟨-, e, herror⟩ | ⟨_, _, r, hcourse, -, -, -, -, hpath, -, hanswer⟩
  · cases herror.symm.trans hresult
  · exact ⟨_, r, hcourse, hpath, hanswer.symm.trans hresult⟩

/-- Whatever `Course` an operation takes, it keeps to its protocol `p`. -/
theorem Course.inTurn (h : c.Course p w past added result) : c.InTurn p w past added result where
  requests := h.sent_prefix
  signings := h.signings
  signing _ _ _ _ hadded := h.signing hadded
  submission _ _ _ hadded hpath := h.submission hadded hpath
  ends := h.ends
  completed _ hresult := h.completed hresult

end Client
end Relay
end TradingDesk
