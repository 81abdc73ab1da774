import TradingDesk.Json.Printer
import TradingDesk.Json.Record

/-! The credentials of a trader's and of a builder's account. They are never shown in full. -/
namespace TradingDesk

structure Credentials where
  key : String
  secret : String
  passphrase : String
deriving DecidableEq

namespace Credentials

def toJson (keyName : String) (c : Credentials) : Json :=
  .object [(keyName, .string c.key), ("secret", .string c.secret),
    ("passphrase", .string c.passphrase)]

def ofJson? (keyName : String) (j : Json) : Option Credentials := do
  match ← j.fields? [keyName, "secret", "passphrase"] with
  | [k, s, p] =>
    return ⟨← Json.required Json.text? k, ← Json.required Json.text? s,
      ← Json.required Json.text? p⟩
  | _ => none

def redacted : String := Json.stringText "[REDACTED]"

def describe (title keyName : String) : String :=
  title ++ " \x7b " ++ keyName ++ ": " ++ redacted ++ ", secret: " ++ redacted ++
    ", passphrase: " ++ redacted ++ " \x7d"

/-- A trader's credentials. -/
def describeTrader (_ : Credentials) : String := describe "ApiKeyCreds" "api_key"

/-- A builder's credentials. -/
def describeBuilder (_ : Credentials) : String := describe "BuilderApiKeyCreds" "key"

end Credentials
end TradingDesk
