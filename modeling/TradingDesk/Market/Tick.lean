import TradingDesk.Decimal.Parser
import TradingDesk.Decimal.Printer
import TradingDesk.Decimal.Rounding
import TradingDesk.Text.Blank
import TradingDesk.Text.Quoted

/-! Ticks: the least step of a market's prices. The tick fixes how many places a price, a size
and an amount may have. -/
namespace TradingDesk

inductive Tick where
  | tenth
  | hundredth
  | thousandth
  | tenThousandth
deriving DecidableEq

/-- How many places each part of an order may have. -/
structure Precision where
  price : Nat
  size : Nat
  amount : Nat
deriving DecidableEq

namespace Tick

def all : List Tick := [tenth, hundredth, thousandth, tenThousandth]

def places : Tick → Nat
  | tenth => 1
  | hundredth => 2
  | thousandth => 3
  | tenThousandth => 4

def name : Tick → String
  | tenth => "0.1"
  | hundredth => "0.01"
  | thousandth => "0.001"
  | tenThousandth => "0.0001"

theorem places_le (t : Tick) : t.places ≤ 28 := by cases t <;> decide

def value (t : Tick) : Decimal := ⟨1, t.places, Decimal.one.coeff_lt, t.places_le⟩

def precision (t : Tick) : Precision := ⟨t.places, 2, t.places + 2⟩

/-! ### Prices -/

private theorem nine_le : 9 ≤ 28 := by decide

private theorem lowest_lt (t : Tick) :
    ((tenTo (9 - t.places) - 1 : Nat) : Int).natAbs < Decimal.coeffBound := by
  cases t <;> decide

private theorem complement_lt (t : Tick) :
    ((tenTo t.places - 1 : Nat) : Int).natAbs < Decimal.coeffBound := by
  cases t <;> decide

private theorem highest_lt (t : Tick) :
    ((tenTo 9 - tenTo (9 - t.places) + 1 : Nat) : Int).natAbs < Decimal.coeffBound := by
  cases t <;> decide

/-- The tick, less a thousand-millionth. -/
def lowest (t : Tick) : Decimal :=
  ⟨(tenTo (9 - t.places) - 1 : Nat), 9, t.lowest_lt, nine_le⟩

/-- One less the tick. -/
def complement (t : Tick) : Decimal :=
  ⟨(tenTo t.places - 1 : Nat), t.places, t.complement_lt, t.places_le⟩

/-- One less the tick, and a thousand-millionth. -/
def highest (t : Tick) : Decimal :=
  ⟨(tenTo 9 - tenTo (9 - t.places) + 1 : Nat), 9, t.highest_lt, nine_le⟩

def admits (t : Tick) (price : Decimal) : Bool := t.lowest ≤ price && price ≤ t.highest

/-! ### Reading -/

inductive ReadError where
  | unsupported (value : Decimal)
  | unreadable (text : String) (cause : Decimal.ParseError)
deriving DecidableEq

def ReadError.message : ReadError → String
  | unsupported x => "unsupported tick size " ++ x.toText
  | unreadable s e => "invalid tick size " ++ Text.quoted s ++ ": " ++ e.message

def ofDecimal (x : Decimal) : Except ReadError Tick :=
  match all.find? (·.value = x.normalize) with
  | some t => .ok t
  | none => .error (.unsupported x)

def parse (text : String) : Except ReadError Tick :=
  match Decimal.parse (Text.trim text) with
  | .ok x => ofDecimal x
  | .error e => .error (.unreadable text e)

end Tick
end TradingDesk
