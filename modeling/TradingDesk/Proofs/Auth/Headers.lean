import TradingDesk.Auth.Headers
import TradingDesk.Proofs.Address
import TradingDesk.Proofs.Bytes.Base64
import TradingDesk.Proofs.Session
import TradingDesk.Proofs.Text.Numeral

/-! What the headers of a request prove about it. Whoever has the request can check them against it:
beside a signature stands the time that was signed, and beside the signature of an account also its
address and the nonce. -/

namespace TradingDesk

namespace Auth

def accountNames : List String :=
  ["POLY_ADDRESS", "POLY_NONCE", "POLY_SIGNATURE", "POLY_TIMESTAMP"]

def traderNames : List String :=
  ["POLY_ADDRESS", "POLY_API_KEY", "POLY_PASSPHRASE", "POLY_SIGNATURE", "POLY_TIMESTAMP"]

def builderNames : List String :=
  ["POLY_BUILDER_API_KEY", "POLY_BUILDER_PASSPHRASE", "POLY_BUILDER_SIGNATURE",
    "POLY_BUILDER_TIMESTAMP"]

/-- The names of `traderNames` and `builderNames`, in their order. -/
def bothNames : List String :=
  ["POLY_ADDRESS", "POLY_API_KEY", "POLY_BUILDER_API_KEY", "POLY_BUILDER_PASSPHRASE",
    "POLY_BUILDER_SIGNATURE", "POLY_BUILDER_TIMESTAMP", "POLY_PASSPHRASE", "POLY_SIGNATURE",
    "POLY_TIMESTAMP"]

end Auth

/-! ### Keyed digests -/

theorem Sha256.digest_length (message : Bytes) : (digest message).length = 32 := by
  simp [digest, Bytes.ofNat_length]

/-- The bytes `code` are the HMAC of `message` for `key`. The key, or its digest if it is longer
than a block of 64 bytes, is filled up to the block `k` with zeros. -/
def Hmac.Authenticates (key message code : Bytes) : Prop :=
  ∃ zeros k, k = (if key.length ≤ 64 then key else Sha256.digest key) ++ List.replicate zeros 0 ∧
    k.length = 64 ∧
    code = Sha256.digest (k.map (· ^^^ 0x5C) ++ Sha256.digest (k.map (· ^^^ 0x36) ++ message))

theorem Hmac.authenticates_digest (key message : Bytes) :
    Authenticates key message (digest key message) := by
  have hblock : blockKey key = (if key.length ≤ 64 then key else Sha256.digest key) ++
      List.replicate (64 - (if key.length ≤ 64 then key else Sha256.digest key).length) 0 := by
    simp only [blockKey, ← Nat.not_le, ite_not]
  refine ⟨_, blockKey key, hblock, ?_, rfl⟩
  have := Sha256.digest_length key
  rw [hblock, List.length_append, List.length_replicate]
  split <;> omega

/-! ### Checking a request -/

namespace Request

def header? (r : Request) (name : String) : Option String := r.headers.lookup name

def headerNames (r : Request) : List String := r.headers.map Prod.fst

/-- The header `signature` has, in base 64, the HMAC of a message for the key that `secret` spells.
The message is what the header `time` says, and then the method, the path and the body of `r` itself
with each single quote made a double one. -/
def SignedWith (r : Request) (secret signature time : String) : Prop :=
  ∃ k t s code, RequestSignature.decodeSecret secret = .ok k ∧ r.header? time = some t ∧
    r.header? signature = some s ∧ Base64.IsUrlSafe s code ∧
    Hmac.Authenticates k (Bytes.ofString (t ++ r.method.name ++ r.path ++
      (r.body.getD "").map fun c => if c = '\'' then '"' else c)) code

/-- The builder `b` vouches for the request. -/
structure VouchedFor (r : Request) (b : Credentials) : Prop where
  key : r.header? "POLY_BUILDER_API_KEY" = some b.key
  passphrase : r.header? "POLY_BUILDER_PASSPHRASE" = some b.passphrase
  signature : r.SignedWith b.secret "POLY_BUILDER_SIGNATURE" "POLY_BUILDER_TIMESTAMP"

/-- The trader at `address` has the request made, with the word of the `builder` for it where there
is one. Nothing else is in its headers. -/
structure AuthenticFrom (r : Request) (address : Address) (c : Credentials)
    (builder : Option Credentials) : Prop where
  names : r.headerNames.Perm
    (Auth.traderNames ++ if builder.isSome then Auth.builderNames else [])
  address : r.header? "POLY_ADDRESS" = some address.checksummed
  key : r.header? "POLY_API_KEY" = some c.key
  passphrase : r.header? "POLY_PASSPHRASE" = some c.passphrase
  signature : r.SignedWith c.secret "POLY_SIGNATURE" "POLY_TIMESTAMP"
  builder : ∀ b, builder = some b → r.VouchedFor b ∧
    r.header? "POLY_BUILDER_TIMESTAMP" = r.header? "POLY_TIMESTAMP"

/-- The proof of control over an account that the headers of `r` tell of. -/
def clobAuth? (r : Request) : Option ClobAuth := do
  let address ← Address.ofChecksummed? (← r.header? "POLY_ADDRESS")
  let timestamp ← r.header? "POLY_TIMESTAMP"
  let nonce ← Numeral.below64? (← r.header? "POLY_NONCE")
  return ⟨address, timestamp, wordOfNat nonce⟩

end Request

/-! ### Making headers -/

namespace Auth

def accountList (address : Address) (signature : String) (nonce time : UInt64) : Headers :=
  [("POLY_ADDRESS", address.checksummed), ("POLY_NONCE", Numeral.ofNat nonce.toNat),
    ("POLY_SIGNATURE", signature), ("POLY_TIMESTAMP", timeText time)]

def traderList (address : Address) (c : Credentials) (signature : String) (time : UInt64) :
    Headers :=
  [("POLY_ADDRESS", address.checksummed), ("POLY_API_KEY", c.key),
    ("POLY_PASSPHRASE", c.passphrase), ("POLY_SIGNATURE", signature),
    ("POLY_TIMESTAMP", timeText time)]

def builderList (c : Credentials) (signature : String) (time : UInt64) : Headers :=
  [("POLY_BUILDER_API_KEY", c.key), ("POLY_BUILDER_PASSPHRASE", c.passphrase),
    ("POLY_BUILDER_SIGNATURE", signature), ("POLY_BUILDER_TIMESTAMP", timeText time)]

/-- The headers of a trader with those of the builder `b` among them. -/
def bothList (address : Address) (c b : Credentials) (own other : String) (time : UInt64) :
    Headers :=
  [("POLY_ADDRESS", address.checksummed), ("POLY_API_KEY", c.key),
    ("POLY_BUILDER_API_KEY", b.key), ("POLY_BUILDER_PASSPHRASE", b.passphrase),
    ("POLY_BUILDER_SIGNATURE", other), ("POLY_BUILDER_TIMESTAMP", timeText time),
    ("POLY_PASSPHRASE", c.passphrase), ("POLY_SIGNATURE", own), ("POLY_TIMESTAMP", timeText time)]

section Sorted

variable (address : Address) (c b : Credentials) (own other : String) (nonce time : UInt64)

theorem accountList_sorted :
    ((accountList address own nonce time).map Prod.fst).Pairwise (· < ·) :=
  (by decide : accountNames.Pairwise (· < ·))

theorem traderList_sorted : ((traderList address c own time).map Prod.fst).Pairwise (· < ·) :=
  (by decide : traderNames.Pairwise (· < ·))

theorem builderList_sorted : ((builderList b other time).map Prod.fst).Pairwise (· < ·) :=
  (by decide : builderNames.Pairwise (· < ·))

theorem bothList_sorted :
    ((bothList address c b own other time).map Prod.fst).Pairwise (· < ·) :=
  (by decide : bothNames.Pairwise (· < ·))

end Sorted

theorem sign_eq_ok {secret timestamp method path signature : String} {body : Option String} :
    RequestSignature.sign secret timestamp method path body = .ok signature ↔
      ∃ k, RequestSignature.decodeSecret secret = .ok k ∧
        RequestSignature.digestText k
          (timestamp ++ method ++ path ++ body.elim "" RequestSignature.unquoted) = signature := by
  rw [RequestSignature.sign]
  cases RequestSignature.decodeSecret secret with
  | ok k => simp [RequestSignature.message]
  | error e => simp

theorem traderHeaders_eq (address : Address) (c : Credentials) (method path : String)
    (body : Option String) (time : UInt64) :
    traderHeaders address c method path body time =
      (RequestSignature.sign c.secret (timeText time) method path body).map
        (traderList address c · time) := by
  rw [traderHeaders]
  cases RequestSignature.sign c.secret (timeText time) method path body with
  | ok signature =>
    simp only [ok_bind, Except.map, traderList, Headers.ofList, Headers.insert, List.foldl_cons,
      List.foldl_nil, String.reduceEq, String.reduceLT, ↓reduceIte]
    rfl
  | error e => rfl

theorem builderHeaders_eq (c : Credentials) (method path : String) (body : Option String)
    (time : UInt64) :
    builderHeaders c method path body time =
      (RequestSignature.sign c.secret (timeText time) method path body).map
        (builderList c · time) := by
  rw [builderHeaders]
  cases RequestSignature.sign c.secret (timeText time) method path body with
  | ok signature =>
    simp only [ok_bind, Except.map, builderList, Headers.ofList, Headers.insert, List.foldl_cons,
      List.foldl_nil, String.reduceEq, String.reduceLT, ↓reduceIte]
    rfl
  | error e => rfl

/-- No name is in both, so nothing gives way. -/
theorem merge_builderList (address : Address) (c b : Credentials) (own other : String)
    (time : UInt64) :
    (traderList address c own time).merge (builderList b other time) =
      bothList address c b own other time := by
  simp only [Headers.merge, traderList, builderList, bothList, Headers.insert, List.foldl_cons,
    List.foldl_nil, String.reduceEq, String.reduceLT, ↓reduceIte]

end Auth

namespace Headers

@[simp] theorem lookup_cons_of_ne {name key value : String} {hs : Headers} (h : name ≠ key) :
    List.lookup name ((key, value) :: hs) = hs.lookup name := by
  rw [List.lookup_cons, beq_false_of_ne h]

theorem insert_of_forall_lt {name value : String} {hs : Headers}
    (h : ∀ k ∈ hs.map Prod.fst, k < name) : insert name value hs = hs ++ [(name, value)] := by
  induction hs with
  | nil => rfl
  | cons head hs ih =>
    obtain ⟨k, v⟩ := head
    obtain ⟨hk, hhs⟩ := List.forall_mem_cons.1 h
    rw [insert, if_neg (String.ne_of_lt hk).symm, if_neg (String.lt_asymm hk), ih hhs]
    rfl

/-- Headers `hs` in the order of their names are merged into none as they are. -/
theorem merge_nil {hs : Headers} (h : (hs.map Prod.fst).Pairwise (· < ·)) : merge [] hs = hs := by
  have happend : ∀ front back : Headers, ((front ++ back).map Prod.fst).Pairwise (· < ·) →
      back.foldl (fun t h => insert h.1 h.2 t) front = front ++ back := by
    intro front back h
    induction back generalizing front with
    | nil => rw [List.append_nil, List.foldl_nil]
    | cons head back ih =>
      have hfront : ∀ k ∈ front.map Prod.fst, k < head.1 := by
        rw [List.map_append, List.pairwise_append] at h
        exact fun k hk => h.2.2 k hk head.1 List.mem_cons_self
      rw [List.foldl_cons, insert_of_forall_lt hfront, ih, List.append_assoc,
        List.singleton_append]
      rwa [List.append_assoc, List.singleton_append]
  exact happend [] hs h

end Headers

/-! ### Requests with their headers -/

namespace Request

theorem headers_withHeaders {r : Request} (hr : r.headers = []) {hs : Headers}
    (h : (hs.map Prod.fst).Pairwise (· < ·)) : (r.withHeaders hs).headers = hs := by
  rw [withHeaders, hr, Headers.merge_nil h]

variable {r : Request} {address : Address} {c b : Credentials} {own other : String}
  {nonce time : UInt64}

theorem clobAuth?_of_headers (h : r.headers = Auth.accountList address own nonce time) :
    r.clobAuth? = some ⟨address, Auth.timeText time, wordOfNat nonce.toNat⟩ := by
  simp [clobAuth?, header?, h, Auth.accountList,
    Address.ofChecksummed?_checksummed, Numeral.below64?_ofNat]

theorem signedWith_of_sign {secret signature timestamp : String}
    (hsign : RequestSignature.sign secret (Auth.timeText time) r.method.name r.path r.body =
      .ok own)
    (htime : r.header? timestamp = some (Auth.timeText time))
    (hsignature : r.header? signature = some own) : r.SignedWith secret signature timestamp := by
  obtain ⟨k, hk, rfl⟩ := Auth.sign_eq_ok.1 hsign
  have hbody : r.body.elim "" RequestSignature.unquoted =
      (r.body.getD "").map fun c => if c = '\'' then '"' else c := by
    rw [← String.toList_inj]
    cases r.body with
    | none => simp
    | some body => simp [RequestSignature.unquoted]
  rw [hbody] at hsignature
  exact ⟨k, _, _, _, hk, htime, hsignature, Base64.isUrlSafe_spelling _,
    Hmac.authenticates_digest k _⟩

theorem vouchedFor_of_headers (h : r.headers = Auth.builderList b other time)
    (hsign : RequestSignature.sign b.secret (Auth.timeText time) r.method.name r.path r.body =
      .ok other) : r.VouchedFor b where
  key := by simp [header?, h, Auth.builderList]
  passphrase := by simp [header?, h, Auth.builderList]
  signature := signedWith_of_sign hsign
    (by simp [header?, h, Auth.builderList])
    (by simp [header?, h, Auth.builderList])

theorem authenticFrom_of_headers (h : r.headers = Auth.traderList address c own time)
    (hsign : RequestSignature.sign c.secret (Auth.timeText time) r.method.name r.path r.body =
      .ok own) : r.AuthenticFrom address c none where
  names := by
    rw [headerNames, h]
    exact .refl Auth.traderNames
  address := by simp [header?, h, Auth.traderList]
  key := by simp [header?, h, Auth.traderList]
  passphrase := by simp [header?, h, Auth.traderList]
  signature := signedWith_of_sign hsign
    (by simp [header?, h, Auth.traderList])
    (by simp [header?, h, Auth.traderList])
  builder := by simp

theorem authenticFrom_of_both (h : r.headers = Auth.bothList address c b own other time)
    (hown : RequestSignature.sign c.secret (Auth.timeText time) r.method.name r.path r.body =
      .ok own)
    (hother : RequestSignature.sign b.secret (Auth.timeText time) r.method.name r.path r.body =
      .ok other) : r.AuthenticFrom address c (some b) where
  names := by
    have hperm : Auth.bothNames.Perm (Auth.traderNames ++ Auth.builderNames) := by decide
    rw [headerNames, h]
    exact hperm
  address := by simp [header?, h, Auth.bothList]
  key := by simp [header?, h, Auth.bothList]
  passphrase := by simp [header?, h, Auth.bothList]
  signature := signedWith_of_sign hown
    (by simp [header?, h, Auth.bothList])
    (by simp [header?, h, Auth.bothList])
  builder := by
    rintro _ ⟨⟩
    refine ⟨⟨?_, ?_, signedWith_of_sign hother ?_ ?_⟩, ?_⟩
    all_goals simp [header?, h, Auth.bothList]

end Request

namespace Auth

open Session

variable {σ : Type}

/-- What the signer is asked about when the clock is read after the events `past`. -/
def proofAt (w : World) (past : List Event) (address : Address) (nonce : UInt64) : ClobAuth :=
  ⟨address, timeText (UInt64.ofNat (w.clock past).toNat), wordOfNat nonce.toNat⟩

theorem run_accountHeaders (address : Address) (chainId nonce : UInt64) (w : World)
    (log : Log σ) :
    (accountHeaders address chainId nonce none : Session σ Headers).run w log =
      (do
        let bs ← w.sign (log.events ++ [.clockRead]) address
          ((proofAt w log.events address nonce).digest chainId)
        let g ← (Signature.ofBytes bs).mapError .signing
        return accountList address g.toText nonce (UInt64.ofNat (w.clock log.events).toNat),
      { log with
        events := log.events ++ [.clockRead,
          .asked address ((proofAt w log.events address nonce).digest chainId)] }) := by
  rw [accountHeaders, run_bind, run_now]
  simp only [Session.signClobAuth, run_bind, run_signature, List.append_assoc,
    List.singleton_append, proofAt]
  generalize w.sign (log.events ++ [.clockRead]) address _ = answer
  cases answer with
  | error e => rfl
  | ok bs =>
    rw [ok_bind, ok_bind]
    cases Signature.ofBytes bs with
    | error e => rfl
    | ok g =>
      simp only [ok_bind, Except.mapError, run_pure, accountList, Headers.ofList, Headers.insert,
        List.foldl_cons, List.foldl_nil, String.reduceEq, String.reduceLT, ↓reduceIte]
      rfl

end Auth
end TradingDesk
