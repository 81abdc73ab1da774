import TradingDesk.Bytes.Hex
import TradingDesk.Text.Hidden

/-! Text in quotes, for messages. What a reader could not see is written by its code point. -/
namespace TradingDesk.Text

def hexDigits (n : Nat) : List Char :=
  if n < 16 then [Hex.digit n] else hexDigits (n / 16) ++ [Hex.digit (n % 16)]

/-- One character inside quotes of the kind `quote`. -/
def quotedChar (quote c : Char) : List Char :=
  if c = Char.ofNat 0 then ['\\', '0']
  else if c = '\t' then ['\\', 't']
  else if c = '\r' then ['\\', 'r']
  else if c = '\n' then ['\\', 'n']
  else if c = '\\' || c = quote then ['\\', c]
  else if isHidden c then '\\' :: 'u' :: '\x7b' :: hexDigits c.toNat ++ ['\x7d']
  else [c]

def quoted (s : String) : String :=
  String.ofList ('"' :: s.toList.flatMap (quotedChar '"') ++ ['"'])

def quotedSingle (c : Char) : String := String.ofList ('\'' :: quotedChar '\'' c ++ ['\''])

end TradingDesk.Text
