import TradingDesk.Auth.Credentials
import TradingDesk.Chain
import TradingDesk.Order.Build
import TradingDesk.Signing.Key

/-! Settings, from the chain alone or from the variables of an environment. -/
namespace TradingDesk

/-- The value of each variable that is set. -/
abbrev Environment := String → Option String

structure Settings where
  chain : Chain
  exchangeUrl : String := "https://clob.polymarket.com"
  relayerUrl : String := "https://relayer-v2.polymarket.com"
  funder : Option Address := none
  signatureKind : SignatureKind := .account
  timeoutSeconds : UInt64 := 30

namespace Settings

def ofChainId (id : UInt64) : Except SettingsFault Settings := do
  return { chain := ← Chain.ofId id }

/-! ### Variables -/

def required (env : Environment) (name : String) : Except SettingsFault String :=
  match env name with
  | some s => .ok s
  | none => .error (.unset name)

def chainId (env : Environment) : Except SettingsFault UInt64 :=
  match env "POLY_CHAIN_ID" with
  | none => .ok Chain.polygon.id
  | some s =>
    match Numeral.below64? (Text.trim s) with
    | some n => .ok (UInt64.ofNat n)
    | none => .error (.chainText s)

/-- A blank address is none. -/
def funderAddress (env : Environment) : Except SettingsFault (Option Address) :=
  match env "POLY_FUNDER_ADDRESS" with
  | none => .ok none
  | some s =>
    if Text.trim s = "" then .ok none
    else
      match Address.parse (Text.trim s) with
      | .ok a => .ok (some a)
      | .error e => .error (.funder e)

def kindOfSignature (env : Environment) : Except SettingsFault SignatureKind :=
  match env "POLY_SIGNATURE_TYPE" with
  | none => .ok .account
  | some s =>
    match Numeral.below8? (Text.trim s) >>= SignatureKind.ofCode? with
    | some k => .ok k
    | none => .error (.signatureKind s)

/-- A timeout that cannot be read is none. -/
def timeout (env : Environment) : UInt64 :=
  ((env "POLY_HTTP_TIMEOUT_SECS" >>= Numeral.below64?).map UInt64.ofNat).getD 30

def ofEnvironment (env : Environment) : Except SettingsFault Settings := do
  let id ← chainId env
  let funder ← funderAddress env
  let signatureKind ← kindOfSignature env
  let settings ← ofChainId id
  return { settings with
    exchangeUrl := (env "POLYMARKET_CLOB_URL").getD settings.exchangeUrl
    relayerUrl := (env "POLYMARKET_RELAYER_URL").getD settings.relayerUrl
    funder := funder
    signatureKind := signatureKind
    timeoutSeconds := timeout env }

/-! ### Secrets -/

def credentials (env : Environment) : Except SettingsFault Credentials := do
  return ⟨← required env "POLY_API_KEY", ← required env "POLY_API_SECRET",
    ← required env "POLY_API_PASSPHRASE"⟩

/-- Without the builder's key there is no builder. -/
def builderCredentials (env : Environment) : Except SettingsFault (Option Credentials) := do
  match env "POLY_BUILDER_API_KEY" with
  | none => return none
  | some key =>
    return some ⟨key, ← required env "POLY_BUILDER_SECRET", ← required env "POLY_BUILDER_PASSPHRASE"⟩

def secretKey (env : Environment) : Except SettingsFault SecretKey := do
  Secp256k1.SecretKey.parse (← required env "WALLET_PRIVATE_KEY")

end Settings
end TradingDesk
