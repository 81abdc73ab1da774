import TradingDesk.Auth.Credentials
import TradingDesk.Auth.RequestSignature
import TradingDesk.Signing.Request

/-! The headers that prove who sends a request: by the account's signature, by the trader's
credentials, and by a builder's. -/
namespace TradingDesk.Auth

variable {σ : Type}

def timeText (t : UInt64) : String := Numeral.ofNat t.toNat

/-- The time is the clock's where none is given. -/
def accountHeaders (address : Address) (chainId nonce : UInt64) (time : Option UInt64) :
    Session σ Headers := do
  let time ← match time with
    | some t => pure t
    | none => Session.now
  let auth : ClobAuth := ⟨address, timeText time, wordOfNat nonce.toNat⟩
  let signature ← Session.signClobAuth auth chainId
  return .ofList [
    ("POLY_ADDRESS", address.checksummed),
    ("POLY_SIGNATURE", signature),
    ("POLY_TIMESTAMP", timeText time),
    ("POLY_NONCE", Numeral.ofNat nonce.toNat)]

def traderHeaders (address : Address) (c : Credentials) (method path : String)
    (body : Option String) (time : UInt64) : Except Error Headers := do
  let signature ← RequestSignature.sign c.secret (timeText time) method path body
  return .ofList [
    ("POLY_ADDRESS", address.checksummed),
    ("POLY_SIGNATURE", signature),
    ("POLY_TIMESTAMP", timeText time),
    ("POLY_API_KEY", c.key),
    ("POLY_PASSPHRASE", c.passphrase)]

def builderHeaders (c : Credentials) (method path : String) (body : Option String)
    (time : UInt64) : Except Error Headers := do
  let signature ← RequestSignature.sign c.secret (timeText time) method path body
  return .ofList [
    ("POLY_BUILDER_SIGNATURE", signature),
    ("POLY_BUILDER_TIMESTAMP", timeText time),
    ("POLY_BUILDER_API_KEY", c.key),
    ("POLY_BUILDER_PASSPHRASE", c.passphrase)]

end TradingDesk.Auth
