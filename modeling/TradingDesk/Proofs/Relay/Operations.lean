import TradingDesk.Proofs.Relay.Protocol
import TradingDesk.Proofs.Safe.Multisend
import TradingDesk.Proofs.Safe.Signature

/-! Making a Safe and having it act. The two operations keep to one protocol each: a Safe that is
not there is asked for and then made, a Safe that is there is asked for its nonce and then made to
act. Of several calls each is read before anything is asked; a single one is read when the nonce is
known. -/

namespace TradingDesk.Relay.Client

open Session Json

variable {σ : Type} (c : Client)

/-! ### The two protocols -/

def deployment : Protocol where
  questions := [c.deploymentQuestion]
  path_ne := by simp [deploymentQuestion_path]
  found there :=
    if there then .error (.invalid (.safeDeployed (c.safeOf c.signer) c.signer)) else .ok ()
  counted _ := .ok ()
  pack g := .ok g.toText
  Ready w past digest := c.deploymentAnswer w past = .ok false ∧
    digest = ({} : CreateProxy).digest c.chain.id c.chain.contracts.safeFactory
  Approved _ := True

def execution (calls : List SafeCall) : Protocol where
  questions := [c.deploymentQuestion, nonceQuestion c.signer .safe]
  path_ne := by simp [deploymentQuestion_path, nonceQuestion_path]
  found there := if there then .ok () else .error (.invalid (.safeNotDeployed (c.safeOf c.signer)))
  counted nonce :=
    (do (← SafeCall.aggregate calls c.chain.contracts.safeMultisend).message nonce).map fun _ => ()
  pack g := Safe.packSignature g.bytes
  Ready w past digest := c.deploymentAnswer w past = .ok true ∧ (∀ x ∈ calls, x.Readable) ∧
    ∃ nonce call t,
      nonceAnswer c.signer .safe w (past ++ [.sent c.deploymentQuestion]) = .ok nonce ∧
      SafeCall.aggregate calls c.chain.contracts.safeMultisend = .ok call ∧
      call.message nonce = .ok t ∧ digest = t.digest c.chain.id (c.safeOf c.signer)
  Approved bs := bs.getD 64 0 ∈ [0, 1, 27, 28]

variable {c} {w : World} {past : List Event} {digest : Word} {b : Credentials}
  {calls : List SafeCall} {call : SafeCall} {metadata : String}

theorem signatureAnswer_eq_ok {p : Protocol} {signer : Address} {text : String} :
    signatureAnswer p w past signer digest = .ok text ↔
      ∃ g : Signature, w.sign past signer digest = .ok g.bytes ∧ p.pack g = .ok text := by
  simp only [signatureAnswer, bind_eq_ok, mapError_eq_ok, Signature.ofBytes_eq_ok]
  constructor
  · rintro ⟨bs, hsign, g, rfl, hpack⟩
    exact ⟨g, hsign, hpack⟩
  · rintro ⟨g, hsign, hpack⟩
    exact ⟨g.bytes, hsign, g, rfl, hpack⟩

theorem run_packed {p : Protocol} (signer : Address) (digest : Word) (w : World) (log : Log σ) :
    (do Session.ofExcept (p.pack (← signature signer digest))).run w log =
      (signatureAnswer p w log.events signer digest,
        { log with events := log.events ++ [.asked signer digest] }) := by
  rw [run_bind, run_signature, signatureAnswer]
  cases w.sign log.events signer digest with
  | error e => rfl
  | ok bs =>
    rw [ok_bind, ok_bind]
    cases Signature.ofBytes bs with
    | error e => rfl
    | ok g => exact run_ofExcept ..

/-- Headers can be made just where the secret of the builder `b` can be read. -/
theorem builderHeaders_map (hb : c.builder = some b) (body : Option String) (time : UInt64) :
    ∃ make, Auth.builderHeaders b "POST" "/submit" body time = c.secretAnswer.map make := by
  rw [Auth.builderHeaders_eq, secretAnswer, requireBuilder, hb, RequestSignature.sign, ok_bind]
  cases RequestSignature.decodeSecret b.secret with
  | ok k => exact ⟨fun _ => Auth.builderList b _ time, rfl⟩
  | error e => exact ⟨fun _ => [], rfl⟩

theorem submitting {p : Protocol} {signing : Session σ String} (make : String → Submission)
    (hb : c.builder = some b)
    (hsigning : ∀ w log, signing.run w log = (signatureAnswer p w log.events c.signer digest,
      { log with events := log.events ++ [.asked c.signer digest] }))
    (happroved : ∀ g text, p.pack g = .ok text → p.Approved g.bytes)
    (hsafe : ∀ text hs,
      c.ForSafe ((Request.post "/submit" (make text).toJson.text).withHeaders hs))
    (w : World) (st : σ) (past : List Event) :
    ∃ added result,
      (do submit b (make (← signing))).run w ⟨st, past⟩ = (result, ⟨st, past ++ added⟩) ∧
      c.Submitting p w past digest added result := by
  rw [run_bind, hsigning]
  cases htext : signatureAnswer p w past c.signer digest with
  | error e => exact ⟨_, _, rfl, .unsigned (by rw [outcome, htext]; rfl)⟩
  | ok text =>
    have hasked : c.outcome p w past (.asked c.signer digest) = .ok () := by
      rw [outcome, htext]
      rfl
    obtain ⟨g, hsign, hpack⟩ := signatureAnswer_eq_ok.1 htext
    obtain ⟨headers, hheaders⟩ := builderHeaders_map hb (some (make text).toJson.text)
      (UInt64.ofNat (w.clock (past ++ [.asked c.signer digest])).toNat)
    dsimp only
    rw [submit, run_bind, run_now]
    dsimp only
    rw [run_bind, run_ofExcept, hheaders]
    cases hsecret : c.secretAnswer with
    | error e =>
      refine ⟨_, _, ?_, .unvouched hasked (by rw [outcome, hsecret]; rfl)⟩
      simp [Except.map]
    | ok k =>
      have hclock : c.outcome p w (past ++ [.asked c.signer digest]) .clockRead = .ok () := by
        rw [outcome, hsecret]
        rfl
      simp only [Except.map]
      rw [run_fetch]
      refine ⟨_, _, ?_, .submitted hsign g.length_eq (happroved g text hpack)
        ⟨hasked, hclock, trivial⟩ rfl rfl (hsafe text (headers k))⟩
      simp [submissionAnswer]

/-! ### The two operations -/

theorem forSafe_executeSubmission (call : SafeCall) (nonce : Word) (signature metadata : String)
    (hs : Headers) : c.ForSafe ((Request.post "/submit"
      (c.executeSubmission call nonce signature metadata).toJson.text).withHeaders hs) := by
  refine ⟨_, _, rfl, parse?_text rfl, ?_⟩
  rw [toJson_executeSubmission]
  simp -implicitDefEqProofs [textAt?, text?]

theorem forSafe_deploySubmission (signature : String) (hs : Headers) :
    c.ForSafe ((Request.post "/submit" (c.deploySubmission signature).toJson.text).withHeaders
      hs) := by
  refine ⟨_, _, rfl, parse?_text rfl, ?_⟩
  rw [toJson_deploySubmission]
  simp -implicitDefEqProofs [textAt?, text?]

theorem mark_of_packSignature {g : Signature} {text : String}
    (h : Safe.packSignature g.bytes = .ok text) : g.bytes.getD 64 0 ∈ [0, 1, 27, 28] := by
  have hpacked := (Safe.packed_of_length g.length_eq).trans h
  obtain ⟨bs, ⟨⟩, -, hmark⟩ := Safe.packed_isOk.1 ⟨text, hpacked⟩
  exact hmark

theorem readable_of_message {multisend : Address} {nonce : Word} {t : SafeTx}
    (hcall : SafeCall.aggregate calls multisend = .ok call) (ht : call.message nonce = .ok t) :
    ∀ x ∈ calls, x.Readable := by
  rcases Nat.lt_or_ge calls.length 2 with hlt | hge
  · cases calls with
    | nil => cases hcall
    | cons x r =>
      obtain rfl : r = [] := List.length_eq_zero_iff.1 (by grind)
      cases hcall
      obtain ⟨value, hvalue, hrest⟩ := bind_eq_ok.1 ht
      obtain ⟨data, hdata, -⟩ := bind_eq_ok.1 hrest
      exact List.forall_mem_singleton.2 ⟨⟨data, hdata⟩, value, hvalue⟩
  · exact (SafeCall.exists_aggregate_iff hge).1 ⟨call, hcall⟩

theorem outcome_deploymentQuestion (p : Protocol) (w : World) (past : List Event) :
    c.outcome p w past (.sent c.deploymentQuestion) =
      (do p.found (← c.deploymentAnswer w past)) := by
  rw [outcome, if_pos rfl]

theorem outcome_nonceQuestion (p : Protocol) (w : World) (past : List Event) :
    c.outcome p w past (.sent (nonceQuestion c.signer .safe)) =
      (do p.counted (← nonceAnswer c.signer .safe w past)) := by
  have hne : nonceQuestion c.signer .safe ≠ c.deploymentQuestion := by
    intro h
    have hpath := congrArg Request.path h
    rw [nonceQuestion_path, deploymentQuestion_path] at hpath
    exact absurd hpath (by decide)
  rw [outcome, if_neg hne, if_pos rfl]

theorem run_deployed (w : World) (log : Log σ) :
    (deployed (c.safeOf c.signer)).run w log = (c.deploymentAnswer w log.events,
      { log with events := log.events ++ [.sent c.deploymentQuestion] }) :=
  run_fetch ..

theorem run_nonce (owner : Address) (kind : Kind) (w : World) (log : Log σ) :
    (nonce owner kind).run w log = (nonceAnswer owner kind w log.events,
      { log with events := log.events ++ [.sent (nonceQuestion owner kind)] }) := by
  rw [nonce, run_bind, run_fetch, nonceAnswer, nonceText, nonceQuestion]
  cases w.respond log.events (.get "/nonce" [("address", owner.checksummed),
      ("type", kind.name)]) with
  | error e => rfl
  | ok response =>
    rw [ok_bind]
    cases response.decode nonceText? with
    | error e => rfl
    | ok text => exact run_ofExcept ..

theorem deploy_course (hb : c.builder = some b) (w : World) (st : σ) (past : List Event) :
    ∃ added result, c.deploy.run w ⟨st, past⟩ = (result, ⟨st, past ++ added⟩) ∧
      c.Course c.deployment w past added result := by
  have hbuilder : c.requireBuilder = .ok b := by rw [requireBuilder, hb]
  have houtcome := outcome_deploymentQuestion (c := c) c.deployment w past
  rw [deploy, run_bind, run_ofExcept, hbuilder]
  dsimp only
  rw [run_bind, run_deployed]
  cases hanswer : c.deploymentAnswer w past with
  | error e =>
    rw [hanswer, error_bind] at houtcome
    exact ⟨_, _, rfl, .halted [] _ rfl trivial (by simpa using houtcome)⟩
  | ok there =>
    rw [hanswer, ok_bind] at houtcome
    cases there with
    | true =>
      refine ⟨_, _, rfl, .halted [] _ rfl trivial ?_⟩
      rw [List.map_nil, List.append_nil]
      exact houtcome
    | false =>
      obtain ⟨added, result, hrun, hsubmitting⟩ := submitting (p := c.deployment)
        c.deploySubmission hb (run_packed c.signer _) (fun _ _ _ => trivial)
        c.forSafe_deploySubmission w st (past ++ [.sent c.deploymentQuestion])
      have hpasses : Passes (c.outcome c.deployment w) past (c.deployment.questions.map .sent) :=
        ⟨houtcome, trivial⟩
      refine ⟨_, result, ?_, .ready hpasses ⟨hanswer, rfl⟩ hsubmitting⟩
      rw [← List.append_assoc]
      exact hrun

theorem counted_execution
    (hcall : SafeCall.aggregate calls c.chain.contracts.safeMultisend = .ok call) (nonce : Word) :
    (c.execution calls).counted nonce = (call.message nonce).map fun _ => () := by
  change (do (← SafeCall.aggregate calls c.chain.contracts.safeMultisend).message nonce).map _ = _
  rw [hcall, ok_bind]

/-- The last part of an execution: the Safe is there and its nonce known. -/
theorem executing (hb : c.builder = some b)
    (hcall : SafeCall.aggregate calls c.chain.contracts.safeMultisend = .ok call)
    {nonce : Word} (hanswer : c.deploymentAnswer w past = .ok true)
    (hnonce : nonceAnswer c.signer .safe w (past ++ [.sent c.deploymentQuestion]) = .ok nonce)
    (metadata : String) (st : σ) :
    ∃ added result,
      (do submit b (c.executeSubmission call nonce (← Safe.sign call c.signer c.chain.id
        (c.safeOf c.signer) nonce) metadata)).run w ⟨st, past ++ [Event.sent c.deploymentQuestion] ++
          [Event.sent (nonceQuestion c.signer .safe)]⟩ = (result, ⟨st, past ++ added⟩) ∧
      c.Course (c.execution calls) w past added result := by
  have hfound := outcome_deploymentQuestion (c := c) (c.execution calls) w past
  rw [hanswer, ok_bind] at hfound
  have hcounted := outcome_nonceQuestion (c := c) (c.execution calls) w
    (past ++ [.sent c.deploymentQuestion])
  rw [hnonce, ok_bind, counted_execution hcall] at hcounted
  rw [Safe.sign, bind_assoc, run_bind, run_ofExcept]
  cases ht : call.message nonce with
  | error e =>
    rw [ht] at hcounted
    refine ⟨_, .error e, ?_, .halted [c.deploymentQuestion] _ rfl ⟨hfound, trivial⟩ hcounted⟩
    rw [← List.append_assoc]
    rfl
  | ok t =>
    rw [ht] at hcounted
    obtain ⟨added, result, hrun, hsubmitting⟩ := submitting (p := c.execution calls)
      (fun text => c.executeSubmission call nonce text metadata) hb
      (run_packed c.signer (t.digest c.chain.id (c.safeOf c.signer)))
      (fun _ _ => mark_of_packSignature)
      (fun text hs => c.forSafe_executeSubmission call nonce text metadata hs) w st
      (past ++ [.sent c.deploymentQuestion, .sent (nonceQuestion c.signer .safe)])
    have hpasses : Passes (c.outcome (c.execution calls) w) past
        ((c.execution calls).questions.map .sent) := ⟨hfound, hcounted, trivial⟩
    have hready : (c.execution calls).Ready w past (t.digest c.chain.id (c.safeOf c.signer)) :=
      ⟨hanswer, readable_of_message hcall ht, nonce, call, t, hnonce, hcall, ht, rfl⟩
    refine ⟨_, result, ?_, .ready hpasses hready hsubmitting⟩
    rw [List.append_assoc, List.singleton_append, ← List.append_assoc]
    simp only [bind_assoc] at hrun ⊢
    exact hrun

theorem execute_course (hb : c.builder = some b)
    (hcall : SafeCall.aggregate calls c.chain.contracts.safeMultisend = .ok call)
    (metadata : String) (w : World) (st : σ) (past : List Event) :
    ∃ added result, (c.execute calls metadata).run w ⟨st, past⟩ =
        (result, ⟨st, past ++ added⟩) ∧
      c.Course (c.execution calls) w past added result := by
  have hbuilder : c.requireBuilder = .ok b := by rw [requireBuilder, hb]
  have hfound := outcome_deploymentQuestion (c := c) (c.execution calls) w past
  rw [execute, run_bind, run_ofExcept, hbuilder]
  dsimp only
  rw [run_bind, run_ofExcept, hcall]
  dsimp only
  rw [run_bind, run_deployed]
  cases hanswer : c.deploymentAnswer w past with
  | error e =>
    rw [hanswer, error_bind] at hfound
    exact ⟨_, _, rfl, .halted [] _ rfl trivial (by simpa using hfound)⟩
  | ok there =>
    rw [hanswer, ok_bind] at hfound
    cases there with
    | false =>
      refine ⟨_, _, rfl, .halted [] _ rfl trivial ?_⟩
      rw [List.map_nil, List.append_nil]
      exact hfound
    | true =>
      dsimp only
      rw [Bool.not_true, if_neg Bool.false_ne_true, run_bind, run_nonce]
      cases hnonce : nonceAnswer c.signer .safe w (past ++ [.sent c.deploymentQuestion]) with
      | error e =>
        have hcounted := outcome_nonceQuestion (c := c) (c.execution calls) w
          (past ++ [.sent c.deploymentQuestion])
        rw [hnonce, error_bind] at hcounted
        refine ⟨_, .error e, ?_, .halted [c.deploymentQuestion] _ rfl ⟨hfound, trivial⟩ hcounted⟩
        rw [← List.append_assoc]
        rfl
      | ok nonce => exact executing hb hcall hanswer hnonce metadata st

/-! ### Operations that do not begin -/

theorem run_unkeyed (hb : c.builder = none) (calls : List SafeCall) (metadata : String) (w : World)
    (log : Log σ) : ∀ s ∈ [c.deploy, c.execute calls metadata],
      s.run w log = (.error (.auth .noBuilderCredentials), log) := by
  have hbuilder : c.requireBuilder = .error (.auth .noBuilderCredentials) := by
    rw [requireBuilder, hb]
  simp [deploy, execute, run_bind, hbuilder]

/-- The `calls` can be made one just where there are some, and of several each is `Readable`. -/
theorem aggregate_refused (multisend : Address)
    (h : calls = [] ∨ 2 ≤ calls.length ∧ ∃ x ∈ calls, ¬x.Readable) :
    ∃ cause, SafeCall.aggregate calls multisend = .error (.invalid cause) := by
  rcases h with rfl | ⟨hseveral, x, hx, hunreadable⟩
  · exact ⟨.noTransactions, rfl⟩
  · have hnone : ¬∃ call, SafeCall.aggregate calls multisend = .ok call := fun hcall =>
      hunreadable ((SafeCall.exists_aggregate_iff hseveral).1 hcall x hx)
    cases hcall : SafeCall.aggregate calls multisend with
    | ok call => exact absurd ⟨call, hcall⟩ hnone
    | error e =>
      obtain ⟨⟨cause, rfl⟩, -⟩ := SafeCall.aggregate_eq_error hseveral hcall
      exact ⟨cause, rfl⟩

theorem exists_aggregate {multisend : Address} (hne : calls ≠ [])
    (h : 2 ≤ calls.length → ∀ x ∈ calls, x.Readable) :
    ∃ call, SafeCall.aggregate calls multisend = .ok call := by
  match calls, hne with
  | [call], _ => exact ⟨call, rfl⟩
  | x :: y :: r, _ => exact (SafeCall.exists_aggregate_iff (by simp)).2 (h (by simp))

theorem execute_unmade (hb : c.builder = some b) {e : Error}
    (he : SafeCall.aggregate calls c.chain.contracts.safeMultisend = .error e) (metadata : String)
    (w : World) (log : Log σ) : (c.execute calls metadata).run w log = (.error e, log) := by
  have hbuilder : c.requireBuilder = .ok b := by rw [requireBuilder, hb]
  simp [execute, run_bind, hbuilder, he]

theorem execute_refused (hb : c.builder = some b)
    (h : calls = [] ∨ 2 ≤ calls.length ∧ ∃ x ∈ calls, ¬x.Readable) (metadata : String)
    (w : World) (log : Log σ) :
    ∃ cause, (c.execute calls metadata).run w log = (.error (.invalid cause), log) := by
  obtain ⟨cause, hcause⟩ := aggregate_refused c.chain.contracts.safeMultisend h
  exact ⟨cause, execute_unmade hb hcause metadata w log⟩

/-- An execution of `calls` fails before anything is asked, or takes a `Course`. -/
theorem execute_unmade_or_course (c : Client) (calls : List SafeCall) (metadata : String)
    (w : World) (log : Log σ) :
    (∃ e, (c.execute calls metadata).run w log = (.error e, log)) ∨
    ∃ added result, (c.execute calls metadata).run w log =
        (result, { log with events := log.events ++ added }) ∧
      c.Course (c.execution calls) w log.events added result := by
  cases hb : c.builder with
  | none => exact .inl ⟨_, run_unkeyed hb calls metadata w log _ (by simp)⟩
  | some b =>
    cases hcall : SafeCall.aggregate calls c.chain.contracts.safeMultisend with
    | error e => exact .inl ⟨e, execute_unmade hb hcall metadata w log⟩
    | ok call => exact .inr (execute_course hb hcall metadata w log.state log.events)

/-- Neither operation of `c` signs or submits out of turn. Without a builder nothing is done, and
nothing either with no `calls` or with several of which one cannot be read. Otherwise the operation
is `InTurn`, by a protocol in which all is about the one Safe of the signer. -/
theorem operations_in_turn (c : Client) (calls : List SafeCall) (metadata : String) (w : World)
    (log : Log σ) :
    (c.builder = none → ∀ s ∈ [c.deploy, c.execute calls metadata],
      s.run w log = (.error (.auth .noBuilderCredentials), log)) ∧
    (c.builder.isSome →
      (∃ added, (c.deploy.run w log).2 = { log with events := log.events ++ added } ∧
        c.InTurn c.deployment w log.events added (c.deploy.run w log).1) ∧
      (calls = [] ∨ 2 ≤ calls.length ∧ (∃ x ∈ calls, ¬x.Readable) →
        ∃ cause, (c.execute calls metadata).run w log = (.error (.invalid cause), log)) ∧
      (calls ≠ [] → (2 ≤ calls.length → ∀ x ∈ calls, x.Readable) →
        ∃ added, ((c.execute calls metadata).run w log).2 =
            { log with events := log.events ++ added } ∧
          c.InTurn (c.execution calls) w log.events added
            ((c.execute calls metadata).run w log).1)) := by
  refine ⟨fun hb => run_unkeyed hb calls metadata w log, fun hsome => ?_⟩
  obtain ⟨b, hb⟩ := Option.isSome_iff_exists.1 hsome
  refine ⟨?_, fun h => execute_refused hb h metadata w log, fun hne hreadable => ?_⟩
  · obtain ⟨added, result, hrun, hcourse⟩ := deploy_course hb w log.state log.events
    rw [hrun]
    exact ⟨added, rfl, hcourse.inTurn⟩
  · obtain ⟨call, hcall⟩ := exists_aggregate hne hreadable
    obtain ⟨added, result, hrun, hcourse⟩ :=
      execute_course hb hcall metadata w log.state log.events
    rw [hrun]
    exact ⟨added, rfl, hcourse.inTurn⟩

/-- A client without a builder, a Safe that is made, a call that is submitted, and no call. -/
theorem operations_in_turn_relaying :
    ((Client.deploy { relaying with builder := none } : Session Unit _).run obliging ⟨(), []⟩).1 =
      .error (.auth .noBuilderCredentials) ∧
    (∃ added, ((relaying.deploy : Session Unit _).run obliging ⟨(), []⟩).2 = ⟨(), added⟩ ∧
      relaying.InTurn relaying.deployment obliging [] added
        ((relaying.deploy : Session Unit _).run obliging ⟨(), []⟩).1 ∧
      ∃ e ∈ added, e.isSubmission) ∧
    (∃ added, ((relaying.execute [bareCall "1"] "" : Session Unit _).run willing ⟨(), []⟩).2 =
        ⟨(), added⟩ ∧
      relaying.InTurn (relaying.execution [bareCall "1"]) willing [] added
        ((relaying.execute [bareCall "1"] "" : Session Unit _).run willing ⟨(), []⟩).1 ∧
      ∃ e ∈ added, e.isSubmission) ∧
    ∃ cause, (relaying.execute [] "" : Session Unit _).run willing ⟨(), []⟩ =
      (.error (.invalid cause), ⟨(), []⟩) := by
  refine ⟨?_, ?_, ?_, ?_⟩
  · have h := (operations_in_turn { relaying with builder := none } [] "" obliging
      (⟨(), []⟩ : Log Unit)).1 rfl _ List.mem_cons_self
    rw [h]
  · obtain ⟨added, hlog, hturn⟩ :=
      ((operations_in_turn relaying [] "" obliging (⟨(), []⟩ : Log Unit)).2 rfl).1
    obtain ⟨digest, r, body, hs, hrun⟩ := deploy_sends
    refine ⟨added, hlog, hturn, ?_⟩
    cases (congrArg Log.events hlog).symm.trans (congrArg Log.events hrun)
    exact ⟨.sent ((Request.post "/submit" body).withHeaders hs), by simp, rfl⟩
  · obtain ⟨added, hlog, hturn⟩ :=
      ((operations_in_turn relaying [bareCall "1"] "" willing (⟨(), []⟩ : Log Unit)).2 rfl).2.2
        (by simp) (by simp)
    obtain ⟨more, hlog', -, r, hr, -, hpath, -⟩ := bareCall_submits read_trim_one
    refine ⟨added, hlog, hturn, .sent r, ?_, by simpa [Event.isSubmission] using hpath⟩
    cases (congrArg Log.events hlog).symm.trans (congrArg Log.events hlog')
    exact hr
  · exact ((operations_in_turn relaying [] "" willing (⟨(), []⟩ : Log Unit)).2 rfl).2.1 (.inl rfl)

end TradingDesk.Relay.Client
