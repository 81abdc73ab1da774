import TradingDesk.Chain
import TradingDesk.Safe.Call

/-! The approvals that a Safe gives before it trades: each of three contracts may move its
collateral and its conditional tokens. -/
namespace TradingDesk.Approvals

def approveSelector : Bytes := [0x09, 0x5E, 0xA7, 0xB3]

def approvalForAllSelector : Bytes := [0xA2, 0x2C, 0xB4, 0x65]

def approve (spender : Address) (amount : Word) : Bytes :=
  approveSelector ++ spender.toWord.toBytes ++ amount.toBytes

def approveAll (operator : Address) (approved : Bool) : Bytes :=
  approvalForAllSelector ++ operator.toWord.toBytes ++ (wordOfNat approved.toNat).toBytes

def unlimited : Word := BitVec.allOnes 256

def calls (c : Contracts) : List SafeCall :=
  [c.exchange, c.negRiskExchange, c.negRiskAdapter].flatMap fun spender =>
    [.plain c.collateral (approve spender unlimited),
      .plain c.conditionalTokens (approveAll spender true)]

end TradingDesk.Approvals
