import TradingDesk.Bytes.Hex
import TradingDesk.Json.Basic

/-! Writing JSON without white space. -/
namespace TradingDesk.Json

def escapedChar (c : Char) : List Char :=
  if c = '"' then ['\\', '"']
  else if c = '\\' then ['\\', '\\']
  else if c = '\n' then ['\\', 'n']
  else if c = '\r' then ['\\', 'r']
  else if c = '\t' then ['\\', 't']
  else if c.toNat = 8 then ['\\', 'b']
  else if c.toNat = 12 then ['\\', 'f']
  else if c.toNat < 32 then
    ['\\', 'u', '0', '0', Hex.digit (c.toNat / 16), Hex.digit (c.toNat % 16)]
  else [c]

def stringText (s : String) : String :=
  String.ofList ('"' :: s.toList.flatMap escapedChar ++ ['"'])

def numberText : Number → String
  | .nat n => Numeral.ofNat n
  | .negative n => "-" ++ Numeral.ofNat n
  | .double x => x.jsonText

mutual

/-- An unreadable value has no text of its own. -/
def text : Json → String
  | null => "null"
  | bool true => "true"
  | bool false => "false"
  | number n => numberText n
  | string s => stringText s
  | array items => "[" ++ itemsText items ++ "]"
  | object members => "\x7b" ++ membersText members ++ "\x7d"
  | unreadable => "null"

def itemsText : List Json → String
  | [] => ""
  | [j] => j.text
  | j :: r => j.text ++ "," ++ itemsText r

def membersText : List (String × Json) → String
  | [] => ""
  | [(k, j)] => stringText k ++ ":" ++ j.text
  | (k, j) :: r => stringText k ++ ":" ++ j.text ++ "," ++ membersText r

end

end TradingDesk.Json
