import TradingDesk.Error

/-! The chains that are served, and the contracts on each. -/
namespace TradingDesk

structure Contracts where
  exchange : Address
  negRiskExchange : Address
  negRiskAdapter : Address
  collateral : Address
  conditionalTokens : Address
  safeFactory : Address
  safeMultisend : Address
  collateralDecimals : Nat
  conditionalDecimals : Nat
deriving DecidableEq

structure Chain where
  id : UInt64
  contracts : Contracts
deriving DecidableEq

namespace Chain

def polygon : Chain where
  id := 137
  contracts :=
    { exchange := .ofNat 0x4bFb41d5B3570DeFd03C39a9A4D8dE6Bd8B8982E
      negRiskExchange := .ofNat 0xC5d563A36AE78145C45a50134d48A1215220f80a
      negRiskAdapter := .ofNat 0xd91E80cF2E7be2e162c6513ceD06f1dD0dA35296
      collateral := .ofNat 0x2791Bca1f2de4661ED88A30C99A7a9449Aa84174
      conditionalTokens := .ofNat 0x4D97DCd97eC945f40cF65F87097ACe5EA0476045
      safeFactory := .ofNat 0xaacFeEa03eb1561C4e67d661e40682Bd20E3541b
      safeMultisend := .ofNat 0xA238CBeb142c10Ef7Ad8442C6D1f9E89e07e7761
      collateralDecimals := 6
      conditionalDecimals := 6 }

/-- The test chain has its own exchange and tokens and shares the other contracts. -/
def amoy : Chain where
  id := 80002
  contracts :=
    { polygon.contracts with
      exchange := .ofNat 0xdFE02Eb6733538f8Ea35D585af8DE5958AD99E40
      collateral := .ofNat 0x9c4e1703476e875070ee25b56a58b008cfb8fa78
      conditionalTokens := .ofNat 0x69308FB512518e39F9b16112fA8d994F4e2Bf8bB }

def all : List Chain := [polygon, amoy]

def ofId (id : UInt64) : Except SettingsFault Chain :=
  match all.find? (·.id = id) with
  | some c => .ok c
  | none => .error (.chain id.toNat)

/-- Markets with several outcomes settle on an exchange of their own. -/
def exchange (c : Chain) (negRisk : Bool) : Address :=
  if negRisk then c.contracts.negRiskExchange else c.contracts.exchange

end Chain
end TradingDesk
