import TradingDesk.Address
import TradingDesk.Bytes.Base64
import TradingDesk.Json.Printer
import TradingDesk.Market.Tick
import TradingDesk.Url.Basic
import TradingDesk.Word.Numeral

/-! What can go wrong, by cause, and the message for each. -/
namespace TradingDesk

/-! ### Requests that are refused before anything is sent -/

/-- The last cause is one that somebody else states. -/
inductive Invalid where
  | tick (cause : Tick.ReadError)
  | tickValue (value : Json)
  | tickTooFine (tick market : Tick)
  | size (size : Decimal)
  | price (price : Decimal) (tick : Tick)
  | tokenId (text : String) (cause : Word.ReadError)
  | priceRoundsToZero (price : Decimal) (places : Nat)
  | amountOverflow
  | tokenDecimals (decimals : Nat)
  | amountRange (amount : Decimal)
  | zeroAmount (size price : Decimal)
  | operation (code : Nat)
  | calldata (text : String) (cause : Hex.Error)
  | value (text : String) (cause : Word.ReadError)
  | noTransactions
  | signatureLength (length : Nat)
  | signatureMark (mark : Nat)
  | noOrders
  | noOrderId
  | noOrderIds
  | safeDeployed (safe owner : Address)
  | safeNotDeployed (safe : Address)
  | stated (reason : String)

/-- A character that a byte stands for by itself. -/
def byteQuoted (b : UInt8) : String := Text.quotedSingle (Char.ofNat b.toNat)

def Hex.Error.message : Hex.Error → String
  | oddLength => "odd number of digits"
  | wrongLength => "invalid string length"
  | badCharacter b i =>
    "invalid character " ++ byteQuoted b ++ " at position " ++ Numeral.ofNat i

/-- The message as a sentence of its own. -/
def Hex.Error.sentence (e : Hex.Error) : String :=
  match e.message.toList with
  | c :: cs => String.ofList (c.toUpper :: cs)
  | [] => ""

def Invalid.message : Invalid → String
  | tick e => e.message
  | tickValue j => "unexpected tick size " ++ j.text
  | tickTooFine t m =>
    "invalid tick size (" ++ t.name ++ "), minimum for the market is " ++ m.name
  | size x => "size must be positive, got " ++ x.toText
  | price x t =>
    "invalid price (" ++ x.toText ++ "), min: " ++ t.name ++ " - max: " ++ t.complement.toText
  | tokenId s e => "invalid token id " ++ Text.quoted s ++ ": " ++ e.message
  | priceRoundsToZero x n =>
    "price " ++ x.toText ++ " rounds to zero at " ++ Numeral.ofNat n ++ " decimals"
  | amountOverflow => "order amount overflow"
  | tokenDecimals n => "unsupported token decimals " ++ Numeral.ofNat n
  | amountRange x => "amount " ++ x.toText ++ " out of range"
  | zeroAmount x y =>
    "size " ++ x.toText ++ " at price " ++ y.toText ++ " rounds to a zero amount"
  | operation n => "invalid operation " ++ Numeral.ofNat n
  | calldata s e => "invalid calldata " ++ Text.quoted s ++ ": " ++ e.sentence
  | value s e => "invalid value " ++ Text.quoted s ++ ": " ++ e.message
  | noTransactions => "no transactions to execute"
  | signatureLength n => "signature must be 65 bytes, got " ++ Numeral.ofNat n
  | signatureMark n => "invalid signature v value " ++ Numeral.ofNat n
  | noOrders => "no orders to post"
  | noOrderId => "order id is empty"
  | noOrderIds => "order ids are empty"
  | safeDeployed s o => "safe " ++ s.checksummed ++ " of " ++ o.checksummed ++
      " is already deployed"
  | safeNotDeployed s => "safe " ++ s.checksummed ++ " is not deployed"
  | stated s => s

/-! ### Other causes -/

inductive SigningFault where
  | refused (reason : String)
  | otherKey (asked own : Address)
  | length (bytes : Nat)
  | noSignature

def SigningFault.message : SigningFault → String
  | refused s => s
  | otherKey a b => "cannot sign for " ++ a.checksummed ++ ", key belongs to " ++ b.checksummed
  | length n => "signer returned " ++ Numeral.ofNat n ++ " bytes, expected 65"
  | noSignature => "Failed to sign digest: signature error"

inductive KeyFault where
  | unreadable (cause : Hex.Error)
  | outOfRange
deriving DecidableEq

def KeyFault.message : KeyFault → String
  | unreadable e => e.message
  | outOfRange => "signature error"

inductive SettingsFault where
  | unset (name : String)
  | chainText (text : String)
  | chain (id : Nat)
  | funder (cause : Hex.Error)
  | signatureKind (text : String)
  | privateKey (cause : KeyFault)
  | baseUrl (text : String) (cause : Url.ParseError)
deriving DecidableEq

def SettingsFault.message : SettingsFault → String
  | unset name => name ++ " environment variable not set"
  | chainText s => "POLY_CHAIN_ID is not a valid chain id: " ++ s
  | chain n => "unsupported chain id " ++ Numeral.ofNat n
  | funder e => "POLY_FUNDER_ADDRESS is not a valid address: " ++ e.message
  | signatureKind s => "POLY_SIGNATURE_TYPE must be 0, 1 or 2, got " ++ s
  | privateKey e => "Invalid private key: " ++ e.message
  | baseUrl s e => "invalid base URL " ++ Text.quoted s ++ ": " ++ e.message

inductive AuthFault where
  | secret (cause : Base64.Error)
  | noCredentials
  | noBuilderCredentials
deriving DecidableEq

def AuthFault.message : AuthFault → String
  | secret e => "Invalid API secret encoding: " ++ e.message
  | noCredentials => "API credentials not set - call ensure_api_key() first"
  | noBuilderCredentials =>
    "builder API credentials are required to submit relayer transactions"

inductive TransportFault where
  | failed (reason : String)
  | path (text : String) (cause : Url.ParseError)
deriving DecidableEq

def TransportFault.message : TransportFault → String
  | failed s => s
  | path s e => "invalid request path " ++ Text.quoted s ++ ": " ++ e.message

/-! ### All of them -/

/-- The last three have no wording of their own: a connection that broke, an answer that cannot
be read, and a sum that has left the range of decimals. -/
inductive Error where
  | invalid (cause : Invalid)
  | signing (cause : SigningFault)
  | nonce (text : String) (cause : Word.ReadError)
  | refused (status : Nat) (reason body : String)
  | timeout (id : String) (polls : Nat)
  | cancelled (id : String)
  | failed (id state hash : String)
  | settings (cause : SettingsFault)
  | auth (cause : AuthFault)
  | transport (cause : TransportFault)
  | connection
  | unreadable
  | outOfRange

def Error.message : Error → String
  | invalid c => "Validation error: " ++ c.message
  | signing c => "Signing error: " ++ c.message
  | nonce s e => "Encoding error: invalid nonce " ++ Text.quoted s ++ ": " ++ e.message
  | refused n s _ => "Upstream error (" ++ Numeral.ofNat n ++ "): " ++ s
  | timeout i n =>
    "Transaction " ++ i ++ " not in a target state after " ++ Numeral.ofNat n ++ " polls"
  | cancelled i => "Polling for transaction " ++ i ++ " was cancelled"
  | failed i s h =>
    "Transaction " ++ i ++ " reached failure state " ++ s ++ " (hash=" ++ h ++ ")"
  | settings c => "Configuration error: " ++ c.message
  | auth c => "Authentication error: " ++ c.message
  | transport c => "Transport error: " ++ c.message
  | connection => ""
  | unreadable => ""
  | outOfRange => ""

end TradingDesk
