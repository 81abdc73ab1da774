import TradingDesk.Crypto.Sha256

/-! Keyed digests of messages, over SHA-256. -/
namespace TradingDesk.Hmac

/-- A key of one block's length; a longer key is first hashed. -/
def blockKey (key : Bytes) : Bytes :=
  let k := if 64 < key.length then Sha256.digest key else key
  k ++ List.replicate (64 - k.length) 0

def digest (key message : Bytes) : Bytes :=
  let k := blockKey key
  Sha256.digest (k.map (· ^^^ 0x5C) ++ Sha256.digest (k.map (· ^^^ 0x36) ++ message))

end TradingDesk.Hmac
