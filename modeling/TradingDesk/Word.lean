import TradingDesk.Bytes.Basic

/-! Words of 256 bits: amounts, identifiers, and the values that are hashed. -/
namespace TradingDesk

abbrev Word := BitVec 256

namespace Word

/-- The 32 bytes of a word, the largest place first. -/
def toBytes (w : Word) : Bytes := Bytes.ofNat 32 w.toNat

def ofBytes (bs : Bytes) : Word := BitVec.ofNat 256 (Bytes.toNat bs)

theorem toBytes_length (w : Word) : w.toBytes.length = 32 := Bytes.ofNat_length ..

end Word
end TradingDesk
