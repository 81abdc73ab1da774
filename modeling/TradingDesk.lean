import TradingDesk.Address
import TradingDesk.Auth.Credentials
import TradingDesk.Auth.Headers
import TradingDesk.Auth.RequestSignature
import TradingDesk.Bytes.Base64
import TradingDesk.Bytes.Basic
import TradingDesk.Bytes.Hex
import TradingDesk.Bytes.Utf8
import TradingDesk.Chain
import TradingDesk.Crypto.Hmac
import TradingDesk.Crypto.Keccak
import TradingDesk.Crypto.Secp256k1
import TradingDesk.Crypto.Sha256
import TradingDesk.Decimal.Arithmetic
import TradingDesk.Decimal.Basic
import TradingDesk.Decimal.Parser
import TradingDesk.Decimal.Printer
import TradingDesk.Decimal.Rounding
import TradingDesk.Error
import TradingDesk.Exchange.Basic
import TradingDesk.Exchange.Client
import TradingDesk.Http.Message
import TradingDesk.Http.Transmission
import TradingDesk.Json.Basic
import TradingDesk.Json.Binary64
import TradingDesk.Json.Parser
import TradingDesk.Json.Printer
import TradingDesk.Json.Record
import TradingDesk.Market.Cache
import TradingDesk.Market.Rounding
import TradingDesk.Market.Tick
import TradingDesk.Order.Amounts
import TradingDesk.Order.Basic
import TradingDesk.Order.Build
import TradingDesk.Order.Signed
import TradingDesk.Relay.Basic
import TradingDesk.Relay.Client
import TradingDesk.Relay.Polling
import TradingDesk.Safe.Approvals
import TradingDesk.Safe.Call
import TradingDesk.Safe.Multisend
import TradingDesk.Safe.Wallet
import TradingDesk.Session
import TradingDesk.Settings
import TradingDesk.Signing.Key
import TradingDesk.Signing.Request
import TradingDesk.Text.Blank
import TradingDesk.Text.Hidden
import TradingDesk.Text.Instant
import TradingDesk.Text.Numeral
import TradingDesk.Text.Quoted
import TradingDesk.TypedData.Domain
import TradingDesk.TypedData.Message
import TradingDesk.Url.Basic
import TradingDesk.Url.Host
import TradingDesk.Url.Parser
import TradingDesk.Url.Percent
import TradingDesk.Url.Punycode
import TradingDesk.Wire.Order
import TradingDesk.Wire.Relay
import TradingDesk.Word
import TradingDesk.Word.Numeral
import TradingDesk.Proofs.Decimal.Nearest
import TradingDesk.Proofs.Decimal.Operations
import TradingDesk.Proofs.Market.Rounding
import TradingDesk.Proofs.Error
import TradingDesk.Proofs.Order.Amounts
import TradingDesk.Proofs.Order.Build
import TradingDesk.Proofs.Bytes.Basic
import TradingDesk.Proofs.Bytes.Hex
import TradingDesk.Proofs.Address
import TradingDesk.Proofs.Text.Numeral
import TradingDesk.Proofs.Order.Payload
import TradingDesk.Proofs.Safe.Multisend
import TradingDesk.Proofs.Crypto.Keccak
import TradingDesk.Proofs.TypedData.Encoding
import TradingDesk.Proofs.TypedData.Digest
import TradingDesk.Proofs.TypedData.TypeText
import TradingDesk.Proofs.Auth.Headers
import TradingDesk.Proofs.Auth.Requests
import TradingDesk.Proofs.Bytes.Utf8
import TradingDesk.Proofs.Json.Strings
import TradingDesk.Proofs.Json.Text
import TradingDesk.Proofs.Relay.Submission
import TradingDesk.Proofs.Relay.Polling
import TradingDesk.Proofs.Market.Cache
import TradingDesk.Proofs.Exchange.Terms
import TradingDesk.Market.Lookups
import TradingDesk.Proofs.Market.Lookups
import TradingDesk.Proofs.Relay.Protocol
import TradingDesk.Proofs.Relay.Operations
import TradingDesk.Proofs.Order.Fills
import TradingDesk.Proofs.Text.Words
import TradingDesk.Proofs.Signing.Numbers
import TradingDesk.Proofs.Decimal.Text
import TradingDesk.Proofs.Json.Record
import TradingDesk.Proofs.Wire.RoundTrip
import TradingDesk.Proofs.Exchange.Calls
import TradingDesk.Proofs.Exchange.Pages
import TradingDesk.Proofs.Exchange.Keys
import TradingDesk.Proofs.Exchange.Posting
import TradingDesk.Proofs.Bytes.Base64
import TradingDesk.Proofs.Auth.Secrets
import TradingDesk.Proofs.Auth.Messages
import TradingDesk.Proofs.Exchange.Endless
import TradingDesk.Proofs.Auth.Endpoints
import TradingDesk.Proofs.Market.RoundingLaws
import TradingDesk.Proofs.Order.Precision
