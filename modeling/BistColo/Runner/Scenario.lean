import BistColo.Core
/-!
# Scenarios

`runner/scenario.hpp`: the arguments of the steps, what a step expects, and
the steps of a scenario in order. Actions, message names and keys are `String`s.
-/

open StreamKit

namespace BistColo.Runner

/-! ## Arguments -/

structure LoginArgs where
  session : Bytes := []
  sequence : UInt64 := 0
  password : Bytes := []
deriving DecidableEq

structure PlaceArgs where
  symbol : Bytes := []
  side : Side := .buy
  quantity : Int64 := 0
  priceStr : Bytes := []
  tif : TimeInForce := .day
  category : ClientCategory := .client
  clientAccount : Bytes := []
  customerInfo : Bytes := []
  exchangeInfo : Bytes := []
  token : Bytes := []
  displayQuantity : Int64 := 0
deriving DecidableEq

structure CancelByTokenArgs where
  token : Bytes := []
deriving DecidableEq

structure CancelByOrderIdArgs where
  tokenRef : Bytes := []
deriving DecidableEq

structure ReplaceArgs where
  existingToken : Bytes := []
  newToken : Bytes := []
  quantity : Int64 := 0
  priceStr : Bytes := []
  category : ClientCategory := .client
  clientAccount : Bytes := []
  displayQuantity : Int64 := 0
deriving DecidableEq

structure QuoteEntrySpec where
  symbol : Bytes := []
  bidPx : Bytes := []
  bidSize : Int64 := 0
  offerPx : Bytes := []
  offerSize : Int64 := 0
deriving DecidableEq

structure MassQuoteArgs where
  token : Bytes := []
  category : ClientCategory := .client
  afk : Bytes := []
  exchangeInfo : Bytes := []
  entries : List QuoteEntrySpec := []
deriving DecidableEq

structure SwitchGatewayArgs where
  tag : Bytes := []
deriving DecidableEq

structure BurstPlacePatternEntry where
  symbol : Bytes := []
  side : Side := .buy
  quantity : Int64 := 0
  priceStr : Bytes := []
  tokenPrefix : Bytes := []
  tif : TimeInForce := .day
  category : ClientCategory := .client
deriving DecidableEq

structure BurstPlaceArgs where
  count : UInt32 := 0
  ratePerSec : UInt32 := 100
  pattern : List BurstPlacePatternEntry := []
deriving DecidableEq

structure FixAmrSubscribeArgs where
  applReqId : Bytes := []
deriving DecidableEq

structure FixPlaceArgs where
  clOrdId : Bytes := []
  symbol : Bytes := []
  side : Side := .buy
  quantity : Int64 := 0
  priceStr : Bytes := []
  tif : TimeInForce := .day
  ordType : Bytes := []
  category : ClientCategory := .client
  account : Bytes := []
  afk : Bytes := []
  displayQuantity : Int64 := 0
deriving DecidableEq

structure FixCancelArgs where
  clOrdId : Bytes := []
  origClOrdId : Bytes := []
  symbol : Bytes := []
  side : Side := .buy
  quantity : Int64 := 0
deriving DecidableEq

structure FixReplaceArgs where
  clOrdId : Bytes := []
  origClOrdId : Bytes := []
  symbol : Bytes := []
  side : Side := .buy
  newQuantity : Int64 := 0
  priceStr : Bytes := []
  ordType : Bytes := []
deriving DecidableEq

/-- The variant of the arguments; those that no runner reads are `other`. -/
inductive StepArgs
  | login (a : LoginArgs)
  | place (a : PlaceArgs)
  | cancelByToken (a : CancelByTokenArgs)
  | cancelByOrderId (a : CancelByOrderIdArgs)
  | replace (a : ReplaceArgs)
  | massQuote (a : MassQuoteArgs)
  | switchGateway (a : SwitchGatewayArgs)
  | burstPlace (a : BurstPlaceArgs)
  | fixAmrSubscribe (a : FixAmrSubscribeArgs)
  | fixPlace (a : FixPlaceArgs)
  | fixCancel (a : FixCancelArgs)
  | fixReplace (a : FixReplaceArgs)
  | other
deriving DecidableEq

/-! ## Steps -/

structure Expect where
  msg : String
  fields : List (String × Bytes) := []
  occurrences : Int := 1
  timeoutMs : Int := 0
deriving DecidableEq

structure Step where
  id : Int := 0
  action : String
  args : StepArgs := .other
  expect : Option Expect := none
deriving DecidableEq

structure Scenario where
  defaultTimeoutMs : Int := 5000
  steps : List Step

/-! ## What a runner reports -/

structure StepResult where
  id : Int
  action : String
  passed : Bool := false
  detail : String := ""
deriving DecidableEq

namespace Step

def result (s : Step) : StepResult := { id := s.id, action := s.action }

def passed (s : Step) : StepResult := { s.result with passed := true }

def failed (s : Step) (detail : String) : StepResult := { s.result with detail := detail }

end Step

/-- `std::max(1, exp.occurrences)` -/
def Expect.needed (exp : Expect) : Nat := (max 1 exp.occurrences).toNat

end BistColo.Runner
