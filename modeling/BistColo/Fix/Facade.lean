import BistColo.Core
/-!
# The FIX facade

The arguments, events and states of `fix/facade.hpp`, as far as the FIX scenario
runner uses them, and the clients as the runner meets them. What is behind the
facade is not modelled: how a client answers is up to the surroundings.
-/

namespace BistColo.Fix

/-! ## Requests -/

inductive OrdType | limit | market | marketToLimit | imbalance | midpointLimit | midpointMarket
deriving DecidableEq

inductive FixCategory | client | house | fund | portfolio
deriving DecidableEq

structure PlaceArgs where
  clOrdId : Bytes
  symbol : Bytes
  side : Side := .buy
  quantity : Int64 := 0
  price : Int32 := 0
  priceDecimals : Int8 := 3
  ordType : OrdType := .limit
  tif : TimeInForce := .day
  category : FixCategory := .client
  account : Bytes
  afk : Bytes
  displayQuantity : Int64 := 0
deriving DecidableEq

structure CancelArgs where
  clOrdId : Bytes
  origClOrdId : Bytes
  symbol : Bytes
  side : Side := .buy
  quantity : Int64 := 0
deriving DecidableEq

structure ReplaceArgs where
  clOrdId : Bytes
  origClOrdId : Bytes
  symbol : Bytes
  side : Side := .buy
  newQuantity : Int64 := 0
  newPrice : Int32 := 0
  priceDecimals : Int8 := 3
  ordType : OrdType := .limit
deriving DecidableEq

/-! ## Events -/

inductive FixSessionState
  | disconnected | loggingIn | active | passwordExpired | passwordChanged | loggedOut | failed
deriving DecidableEq

def FixSessionState.toNat : FixSessionState → Nat
  | .disconnected => 0
  | .loggingIn => 1
  | .active => 2
  | .passwordExpired => 3
  | .passwordChanged => 4
  | .loggedOut => 5
  | .failed => 6

structure LogonResult where
  state : FixSessionState := .disconnected
  sessionStatus : Int32 := -1
  detail : Bytes := []
deriving DecidableEq

structure ExecutionReportEvent where
  clOrdId : Bytes := []
  origClOrdId : Bytes := []
  execId : Bytes := []
  orderId : Bytes := []
  symbol : Bytes := []
  side : Side := .buy
  execType : UInt8 := 0
  ordStatus : UInt8 := 0
  leavesQty : Int64 := 0
  cumQty : Int64 := 0
  lastQty : Int64 := 0
  lastPrice : Int32 := 0
  text : Bytes := []
deriving DecidableEq

structure CancelRejectEvent where
  clOrdId : Bytes := []
  origClOrdId : Bytes := []
  text : Bytes := []
deriving DecidableEq

structure TradeReportEvent where
  tradeReportId : Bytes := []
  tradeReportRefId : Bytes := []
  symbol : Bytes := []
  side : Side := .buy
  quantity : Int64 := 0
  price : Int32 := 0
  counterpartyId : Bytes := []
deriving DecidableEq

structure QuoteStatusEvent where
  quoteId : Bytes := []
  symbol : Bytes := []
  side : Side := .buy
  quoteStatus : UInt32 := 0
  leavesQty : Int64 := 0
  price : Int32 := 0
deriving DecidableEq

/-! ## Clients -/

inductive Client | oe | rd | dc
deriving DecidableEq

inductive Call
  | login (c : Client)
  | logout (c : Client)
  | subscribeAll (applReqId : Bytes)
  | place (a : PlaceArgs)
  | cancel (a : CancelArgs)
  | replace (a : ReplaceArgs)
deriving DecidableEq

/-- The clients of a runner: which it has, what each reading of a state returns
and how each call ends, by number. -/
structure Clients where
  has : Client → Bool
  state : Client → Nat → FixSessionState
  answer : Nat → Call → Result Unit

end BistColo.Fix
