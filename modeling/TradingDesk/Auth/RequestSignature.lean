import TradingDesk.Bytes.Utf8
import TradingDesk.Crypto.Hmac
import TradingDesk.Error

/-! The keyed digest that proves who sent a request. It covers the time, the method, the path and
the body, one after the other. -/
namespace TradingDesk.RequestSignature

/-- Secrets come in three spellings. -/
def decodeSecret (secret : String) : Except Base64.Error Bytes :=
  let bs := Bytes.ofString secret
  match Base64.urlSafe.decode bs with
  | .ok k => .ok k
  | .error _ =>
    match Base64.urlSafeUnpadded.decode bs with
    | .ok k => .ok k
    | .error _ => Base64.standard.decode bs

/-- A single quote counts as a double one. -/
def unquoted (body : String) : String :=
  String.ofList (body.toList.map fun c => if c = '\'' then '"' else c)

def message (timestamp method path : String) (body : Option String) : String :=
  timestamp ++ method ++ path ++ body.elim "" unquoted

def digestText (secret : Bytes) (message : String) : String :=
  Utf8.decodeLossy (Base64.urlSafe.encode (Hmac.digest secret (Bytes.ofString message)))

def sign (secret timestamp method path : String) (body : Option String) : Except Error String :=
  match decodeSecret secret with
  | .ok k => .ok (digestText k (message timestamp method path body))
  | .error e => .error (.auth (.secret e))

end TradingDesk.RequestSignature
