import TradingDesk.Address

/-! Domains of typed data. A domain says for whom a message is signed, so that no signature
serves elsewhere; all of its parts but the chain may be absent. -/
namespace TradingDesk

structure Domain where
  name : Option String := none
  version : Option String := none
  chainId : Word
  contract : Option Address := none
deriving DecidableEq

def wordOfNat (n : Nat) : Word := BitVec.ofNat 256 n

/-- Texts and byte strings take part in a hash by their own hash. -/
def textWord (s : String) : Word := keccak256 (Bytes.ofString s)

/-- A struct is hashed as its type and then its members, a word each. -/
def structEncoding (type : String) (members : List Word) : Bytes :=
  (textWord type :: members).flatMap Word.toBytes

def structHash (type : String) (members : List Word) : Word :=
  keccak256 (structEncoding type members)

namespace Domain

def exchange (chainId : UInt64) (contract : Address) : Domain where
  name := some "Polymarket CTF Exchange"
  version := some "1"
  chainId := wordOfNat chainId.toNat
  contract := some contract

def clobAuth (chainId : UInt64) : Domain where
  name := some "ClobAuthDomain"
  version := some "1"
  chainId := wordOfNat chainId.toNat

def proxyFactory (chainId : UInt64) (factory : Address) : Domain where
  name := some "Polymarket Contract Proxy Factory"
  chainId := wordOfNat chainId.toNat
  contract := some factory

def safe (chainId : UInt64) (wallet : Address) : Domain where
  chainId := wordOfNat chainId.toNat
  contract := some wallet

/-! ### Hash -/

def memberTypes (d : Domain) : List String :=
  (if d.name.isSome then ["string name"] else []) ++
  (if d.version.isSome then ["string version"] else []) ++
  ["uint256 chainId"] ++
  (if d.contract.isSome then ["address verifyingContract"] else [])

def typeText (d : Domain) : String :=
  "EIP712Domain(" ++ ",".intercalate d.memberTypes ++ ")"

def members (d : Domain) : List Word :=
  (d.name.map textWord).toList ++ (d.version.map textWord).toList ++ [d.chainId] ++
    (d.contract.map Address.toWord).toList

def separator (d : Domain) : Word := structHash d.typeText d.members

end Domain

/-! ### Digests -/

def typedDataEncoding (separator hash : Word) : Bytes :=
  0x19 :: 0x01 :: separator.toBytes ++ hash.toBytes

/-- The digest of a struct under a domain. -/
def typedDataHash (separator hash : Word) : Word := keccak256 (typedDataEncoding separator hash)

def personalEncoding (hash : Word) : Bytes :=
  0x19 :: Bytes.ofString "Ethereum Signed Message:\n32" ++ hash.toBytes

/-- The digest of a hash that is signed as a message of its own. -/
def personalHash (hash : Word) : Word := keccak256 (personalEncoding hash)

end TradingDesk
