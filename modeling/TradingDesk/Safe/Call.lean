import TradingDesk.Error
import TradingDesk.TypedData.Message

/-! Calls that a Safe is to make. Data and value are texts until they are needed. -/
namespace TradingDesk

inductive Operation where
  | call
  | delegateCall
deriving DecidableEq

namespace Operation

def code : Operation → UInt8
  | call => 0
  | delegateCall => 1

def ofCode (n : UInt8) : Except Error Operation :=
  if n = 0 then .ok call
  else if n = 1 then .ok delegateCall
  else .error (.invalid (.operation n.toNat))

end Operation

structure SafeCall where
  target : Address
  operation : Operation
  data : String
  value : String
deriving DecidableEq

namespace SafeCall

/-- A plain call that sends no value. -/
def plain (target : Address) (data : Bytes) : SafeCall := ⟨target, .call, Hex.encode0x data, "0"⟩

def dataBytes (c : SafeCall) : Except Error Bytes :=
  match Hex.decode (Hex.dropMarks (Bytes.ofString c.data)) with
  | .ok bs => .ok bs
  | .error e => .error (.invalid (.calldata c.data e))

/-- A blank value is zero. -/
def valueWord (c : SafeCall) : Except Error Word :=
  match Word.read (Text.trim c.value) with
  | .ok w => .ok w
  | .error e => .error (.invalid (.value c.value e))

def message (c : SafeCall) (nonce : Word) : Except Error SafeTx := do
  let value ← c.valueWord
  let data ← c.dataBytes
  return {
    target := c.target
    value := value
    data := data
    operation := c.operation.code
    nonce := nonce }

end SafeCall
end TradingDesk
