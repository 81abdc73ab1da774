import TradingDesk.Safe.Call

/-! Several calls in one: they are packed one after the other and handed to a contract that makes
them in turn. -/
namespace TradingDesk.SafeCall

/-- One byte of operation, the target, the value, the length of the data, the data. -/
def record (operation : Operation) (target : Address) (value : Word) (data : Bytes) : Bytes :=
  operation.code :: target.toBytes ++ value.toBytes ++ (wordOfNat data.length).toBytes ++ data

def pack : List SafeCall → Except Error Bytes
  | [] => .ok []
  | c :: r => do
    let data ← c.dataBytes
    let value ← c.valueWord
    let rest ← pack r
    return record c.operation c.target value data ++ rest

/-! ### Encoding for a contract -/

def multisendSelector : Bytes := [0x8D, 0x80, 0xFF, 0x0A]

/-- Zeros up to a multiple of 32 bytes. -/
def fill (length : Nat) : Bytes := List.replicate ((32 - length % 32) % 32) 0

/-- One argument of any length: its place, its length, itself. -/
def encodeMultisend (packed : Bytes) : Bytes :=
  multisendSelector ++ (wordOfNat 32).toBytes ++ (wordOfNat packed.length).toBytes ++ packed ++
    fill packed.length

def batch (packed : Bytes) (multisend : Address) : SafeCall :=
  ⟨multisend, .delegateCall, Hex.encode0x (encodeMultisend packed), "0"⟩

/-- A single call stays as it is. -/
def aggregate (calls : List SafeCall) (multisend : Address) : Except Error SafeCall :=
  match calls with
  | [] => .error (.invalid .noTransactions)
  | [c] => .ok c
  | cs => (pack cs).map (batch · multisend)

end TradingDesk.SafeCall
