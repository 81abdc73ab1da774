import TradingDesk.Auth.Headers
import TradingDesk.Http.Transmission
import TradingDesk.Relay.Polling
import TradingDesk.Safe.Approvals
import TradingDesk.Safe.Multisend
import TradingDesk.Safe.Wallet
import TradingDesk.Settings
import TradingDesk.Wire.Relay

/-! The relayer, which makes the Safe of an account and has it act, for a builder who is known by
credentials. -/
namespace TradingDesk.Relay

structure Client where
  signer : Address
  chain : Chain
  builder : Option Credentials := none

namespace Client

open Json

def ofChainId (signer : Address) (id : UInt64) : Except SettingsFault Client := do
  return { signer := signer, chain := ← Chain.ofId id }

/-- The service must have a URL. -/
def ofSettings (s : Settings) (signer : Address) : Except SettingsFault Client := do
  let _ ← Transmission.serviceUrl s.relayerUrl
  ofChainId signer s.chain.id

def describe (c : Client) : String :=
  "RelayerClient \x7b signer: " ++ c.signer.lower ++ ", chain_id: " ++
    Numeral.ofNat c.chain.id.toNat ++ ", has_builder_credentials: " ++
    toString c.builder.isSome ++ " \x7d"

variable {σ : Type}

/-! ### Questions -/

def nonceText? (j : Json) : Option String := do
  match ← j.fields? ["nonce"] with
  | [nonce] => required text? nonce
  | _ => none

def readNonce (text : String) : Except Error Word :=
  match Word.read (Text.trim text) with
  | .ok w => .ok w
  | .error e => .error (.nonce text e)

def nonce (owner : Address) (kind : Kind) : Session σ Word := do
  let text ← Session.fetch
    (.get "/nonce" [("address", owner.checksummed), ("type", kind.name)]) nonceText?
  Session.ofExcept (readNonce text)

/-- None are given for a transaction yet unknown. -/
def transaction (id : String) : Session σ (List Transaction) :=
  Session.fetch (.get "/transaction" [("id", id)]) (list? Transaction.ofJson?)

/-- With credentials the question is for the builder's own transactions. -/
def transactions (c : Client) : Session σ (List Transaction) := do
  let request := Request.get "/transactions"
  let headers ← match c.builder with
    | some b =>
      let time ← Session.now
      Session.ofExcept (Auth.builderHeaders b "GET" request.path none time)
    | none => pure []
  Session.fetch (request.withHeaders headers) (list? Transaction.ofJson?)

def deployed? (j : Json) : Option Bool := do
  match ← j.fields? ["deployed"] with
  | [deployed] => required bool? deployed
  | _ => none

def deployed (safe : Address) : Session σ Bool :=
  Session.fetch (.get "/deployed" [("address", safe.checksummed)]) deployed?

def safeOf (c : Client) (owner : Address) : Address :=
  Safe.address owner c.chain.contracts.safeFactory

/-! ### Submissions -/

def requireBuilder (c : Client) : Except Error Credentials :=
  match c.builder with
  | some b => .ok b
  | none => .error (.auth .noBuilderCredentials)

def submit (b : Credentials) (s : Submission) : Session σ Receipt := do
  let body := s.toJson.text
  let time ← Session.now
  let headers ← Session.ofExcept (Auth.builderHeaders b "POST" "/submit" (some body) time)
  Session.fetch ((Request.post "/submit" body).withHeaders headers) Receipt.ofJson?

def deploySubmission (c : Client) (signature : String) : Submission where
  kind := .safeCreate
  sender := c.signer.checksummed
  target := c.chain.contracts.safeFactory.checksummed
  proxyWallet := some (c.safeOf c.signer).checksummed
  data := "0x"
  signature := signature
  params :=
    { paymentToken := some Address.zero.checksummed
      payment := some "0"
      paymentReceiver := some Address.zero.checksummed }

/-- Makes the signer's Safe, which must not be there yet. -/
def deploy (c : Client) : Session σ Receipt := do
  let b ← Session.ofExcept c.requireBuilder
  let safe := c.safeOf c.signer
  if ← deployed safe then throw (.invalid (.safeDeployed safe c.signer))
  let signature ← Session.signCreateProxy {} c.chain.id c.chain.contracts.safeFactory c.signer
  submit b (c.deploySubmission signature)

def executeSubmission (c : Client) (call : SafeCall) (nonce : Word) (signature metadata : String) :
    Submission where
  kind := .safe
  sender := c.signer.checksummed
  target := call.target.checksummed
  proxyWallet := some (c.safeOf c.signer).checksummed
  data := call.data
  nonce := some nonce.toText
  signature := signature
  params :=
    { gasPrice := some "0"
      operation := some (Numeral.ofNat call.operation.code.toNat)
      safeTxnGas := some "0"
      baseGas := some "0"
      gasToken := some Address.zero.checksummed
      refundReceiver := some Address.zero.checksummed }
  metadata := some metadata

/-- Has the signer's Safe make the calls, as one transaction. -/
def execute (c : Client) (calls : List SafeCall) (metadata : String) : Session σ Receipt := do
  let b ← Session.ofExcept c.requireBuilder
  let call ← Session.ofExcept (SafeCall.aggregate calls c.chain.contracts.safeMultisend)
  let safe := c.safeOf c.signer
  if !(← deployed safe) then throw (.invalid (.safeNotDeployed safe))
  let nonce ← nonce c.signer .safe
  let signature ← Safe.sign call c.signer c.chain.id safe nonce
  submit b (c.executeSubmission call nonce signature metadata)

/-! ### Waiting -/

/-- The first of the transactions under the identifier counts. -/
def fetchWatched (id : String) (w : World) (log : Log σ) : Fetched (Log σ) :=
  let (answer, log) := (transaction id).run w log
  ⟨answer.map List.head?, 0, log⟩

def poll (watch : Watch) (w : World) (log : Log σ) : Ending (Log σ) :=
  watch.run (fetchWatched watch.id w) log

end Client
end TradingDesk.Relay
