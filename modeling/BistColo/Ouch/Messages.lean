import BistColo.Core
/-!
# OUCH messages

`ouch/messages.hpp` and the `alpha_set` and `token_set` helpers of
`ouch/codec.hpp`. A record here has the fields of the packed struct in wire
order, and `bytes` lays it out. The messages the gateway sends are told apart
by their type byte and their size.
-/

open StreamKit

namespace BistColo.Ouch

/-! ## Message types -/

namespace MsgType

def enterOrder : UInt8 := 79        -- 'O'
def replaceOrder : UInt8 := 85      -- 'U'
def cancelOrder : UInt8 := 88       -- 'X'
def cancelByOrderId : UInt8 := 89   -- 'Y'
def massQuote : UInt8 := 81         -- 'Q'

def orderAccepted : UInt8 := 65        -- 'A'
def orderRejected : UInt8 := 74        -- 'J'
def orderReplaced : UInt8 := 85        -- 'U'
def orderCanceled : UInt8 := 67        -- 'C'
def orderExecuted : UInt8 := 69        -- 'E'
def massQuoteAck : UInt8 := 75         -- 'K'
def massQuoteRejection : UInt8 := 82   -- 'R'

end MsgType

def maxQuoteEntries : Nat := 5

/-- Left-justified text, cut or padded with spaces to the width of the field. -/
def alphaSet (n : Nat) (src : Bytes) : Field n := Field.pad 32 n src

/-- A field of `n` zero bytes, as `memset` leaves it. -/
def zeros (n : Nat) : Field n := Field.pad 0 n []

/-! ## Client to gateway -/

structure EnterOrder where
  messageType : UInt8
  orderToken : OrderToken
  orderBookId : UInt32
  side : UInt8
  quantity : UInt64
  price : Int32
  timeInForce : UInt8
  openClose : UInt8
  clientAccount : Field 16
  customerInfo : Field 15
  exchangeInfo : Field 32
  displayQuantity : UInt64
  clientCategory : UInt8
  offHours : UInt8
  smpLevel : UInt8
  smpMethod : UInt8
  smpId : Field 3
  reserved : Field 2
deriving DecidableEq

def EnterOrder.bytes (m : EnterOrder) : Bytes :=
  [m.messageType] ++ m.orderToken.bytes ++ beU32 m.orderBookId ++ [m.side] ++ beU64 m.quantity ++
    beI32 m.price ++ [m.timeInForce, m.openClose] ++ m.clientAccount.bytes ++ m.customerInfo.bytes ++
    m.exchangeInfo.bytes ++ beU64 m.displayQuantity ++
    [m.clientCategory, m.offHours, m.smpLevel, m.smpMethod] ++ m.smpId.bytes ++ m.reserved.bytes

structure ReplaceOrder where
  messageType : UInt8
  existingOrderToken : OrderToken
  replacementOrderToken : OrderToken
  quantity : UInt64
  price : Int32
  openClose : UInt8
  clientAccount : Field 16
  customerInfo : Field 15
  exchangeInfo : Field 32
  displayQuantity : UInt64
  clientCategory : UInt8
  reserved : Field 8
deriving DecidableEq

def ReplaceOrder.bytes (m : ReplaceOrder) : Bytes :=
  [m.messageType] ++ m.existingOrderToken.bytes ++ m.replacementOrderToken.bytes ++ beU64 m.quantity ++
    beI32 m.price ++ [m.openClose] ++ m.clientAccount.bytes ++ m.customerInfo.bytes ++
    m.exchangeInfo.bytes ++ beU64 m.displayQuantity ++ [m.clientCategory] ++ m.reserved.bytes

structure CancelOrder where
  messageType : UInt8
  orderToken : OrderToken
deriving DecidableEq

def CancelOrder.bytes (m : CancelOrder) : Bytes := [m.messageType] ++ m.orderToken.bytes

structure CancelByOrderId where
  messageType : UInt8
  orderBookId : UInt32
  side : UInt8
  orderId : UInt64
deriving DecidableEq

def CancelByOrderId.bytes (m : CancelByOrderId) : Bytes :=
  [m.messageType] ++ beU32 m.orderBookId ++ [m.side] ++ beU64 m.orderId

structure MassQuoteHeader where
  messageType : UInt8
  orderToken : OrderToken
  clientCategory : UInt8
  clientAccount : Field 16
  exchangeInfo : Field 16
  noQuoteEntries : UInt16
deriving DecidableEq

def MassQuoteHeader.bytes (m : MassQuoteHeader) : Bytes :=
  [m.messageType] ++ m.orderToken.bytes ++ [m.clientCategory] ++ m.clientAccount.bytes ++
    m.exchangeInfo.bytes ++ beU16 m.noQuoteEntries

structure QuoteEntry where
  orderBookId : UInt32
  bidPrice : Int32
  offerPrice : Int32
  bidSize : UInt64
  offerSize : UInt64
deriving DecidableEq

def QuoteEntry.bytes (e : QuoteEntry) : Bytes :=
  beU32 e.orderBookId ++ beI32 e.bidPrice ++ beI32 e.offerPrice ++ beU64 e.bidSize ++ beU64 e.offerSize

theorem EnterOrder.length_bytes (m : EnterOrder) : m.bytes.length = 114 := by
  unfold EnterOrder.bytes
  simp

theorem ReplaceOrder.length_bytes (m : ReplaceOrder) : m.bytes.length = 122 := by
  unfold ReplaceOrder.bytes
  simp

theorem CancelOrder.length_bytes (m : CancelOrder) : m.bytes.length = 15 := by
  unfold CancelOrder.bytes
  simp

theorem CancelByOrderId.length_bytes (m : CancelByOrderId) : m.bytes.length = 14 := by
  unfold CancelByOrderId.bytes
  simp

theorem MassQuoteHeader.length_bytes (m : MassQuoteHeader) : m.bytes.length = 50 := by
  unfold MassQuoteHeader.bytes
  simp

theorem QuoteEntry.length_bytes (e : QuoteEntry) : e.bytes.length = 28 := by
  unfold QuoteEntry.bytes
  simp

/-! ## Gateway to client -/

structure OrderAccepted where
  messageType : UInt8
  timestampNs : UInt64
  orderToken : OrderToken
  orderBookId : UInt32
  side : UInt8
  orderId : UInt64
  quantity : UInt64
  price : Int32
  timeInForce : UInt8
  openClose : UInt8
  clientAccount : Field 16
  orderState : UInt8
  customerInfo : Field 15
  exchangeInfo : Field 32
  preTradeQuantity : UInt64
  displayQuantity : UInt64
  clientCategory : UInt8
  offHours : UInt8
  smpLevel : UInt8
  smpMethod : UInt8
  smpId : Field 3
deriving DecidableEq

def OrderAccepted.bytes (m : OrderAccepted) : Bytes :=
  [m.messageType] ++ beU64 m.timestampNs ++ m.orderToken.bytes ++ beU32 m.orderBookId ++ [m.side] ++
    beU64 m.orderId ++ beU64 m.quantity ++ beI32 m.price ++ [m.timeInForce, m.openClose] ++ m.clientAccount.bytes ++
    [m.orderState] ++ m.customerInfo.bytes ++ m.exchangeInfo.bytes ++ beU64 m.preTradeQuantity ++
    beU64 m.displayQuantity ++ [m.clientCategory, m.offHours, m.smpLevel, m.smpMethod] ++ m.smpId.bytes

structure OrderRejected where
  messageType : UInt8
  timestampNs : UInt64
  orderToken : OrderToken
  rejectCode : Int32
deriving DecidableEq

def OrderRejected.bytes (m : OrderRejected) : Bytes :=
  [m.messageType] ++ beU64 m.timestampNs ++ m.orderToken.bytes ++ beI32 m.rejectCode

structure OrderReplaced where
  messageType : UInt8
  timestampNs : UInt64
  replacementOrderToken : OrderToken
  previousOrderToken : OrderToken
  orderBookId : UInt32
  side : UInt8
  orderId : UInt64
  quantity : UInt64
  price : Int32
  timeInForce : UInt8
  openClose : UInt8
  clientAccount : Field 16
  orderState : UInt8
  customerInfo : Field 15
  exchangeInfo : Field 32
  preTradeQuantity : UInt64
  displayQuantity : UInt64
  clientCategory : UInt8
deriving DecidableEq

def OrderReplaced.bytes (m : OrderReplaced) : Bytes :=
  [m.messageType] ++ beU64 m.timestampNs ++ m.replacementOrderToken.bytes ++ m.previousOrderToken.bytes ++
    beU32 m.orderBookId ++ [m.side] ++ beU64 m.orderId ++ beU64 m.quantity ++ beI32 m.price ++
    [m.timeInForce, m.openClose] ++ m.clientAccount.bytes ++ [m.orderState] ++ m.customerInfo.bytes ++
    m.exchangeInfo.bytes ++ beU64 m.preTradeQuantity ++ beU64 m.displayQuantity ++ [m.clientCategory]

structure OrderCanceled where
  messageType : UInt8
  timestampNs : UInt64
  orderToken : OrderToken
  orderBookId : UInt32
  side : UInt8
  orderId : UInt64
  reason : UInt8
deriving DecidableEq

def OrderCanceled.bytes (m : OrderCanceled) : Bytes :=
  [m.messageType] ++ beU64 m.timestampNs ++ m.orderToken.bytes ++ beU32 m.orderBookId ++ [m.side] ++
    beU64 m.orderId ++ [m.reason]

structure OrderExecuted where
  messageType : UInt8
  timestampNs : UInt64
  orderToken : OrderToken
  orderBookId : UInt32
  tradedQuantity : UInt64
  tradePrice : Int32
  matchId : Field 12
  clientCategory : UInt8
  reserved : Field 16
deriving DecidableEq

def OrderExecuted.bytes (m : OrderExecuted) : Bytes :=
  [m.messageType] ++ beU64 m.timestampNs ++ m.orderToken.bytes ++ beU32 m.orderBookId ++ beU64 m.tradedQuantity ++
    beI32 m.tradePrice ++ m.matchId.bytes ++ [m.clientCategory] ++ m.reserved.bytes

structure MassQuoteAck where
  messageType : UInt8
  timestampNs : UInt64
  orderToken : OrderToken
  orderBookId : UInt32
  quantity : UInt64
  tradedQuantity : UInt64
  price : Int32
  side : UInt8
  quoteStatus : UInt32
deriving DecidableEq

def MassQuoteAck.bytes (m : MassQuoteAck) : Bytes :=
  [m.messageType] ++ beU64 m.timestampNs ++ m.orderToken.bytes ++ beU32 m.orderBookId ++ beU64 m.quantity ++
    beU64 m.tradedQuantity ++ beI32 m.price ++ [m.side] ++ beU32 m.quoteStatus

structure MassQuoteRejection where
  messageType : UInt8
  timestampNs : UInt64
  orderToken : OrderToken
  orderBookId : UInt32
  rejectCode : Int32
deriving DecidableEq

def MassQuoteRejection.bytes (m : MassQuoteRejection) : Bytes :=
  [m.messageType] ++ beU64 m.timestampNs ++ m.orderToken.bytes ++ beU32 m.orderBookId ++ beI32 m.rejectCode

theorem OrderAccepted.length_bytes (m : OrderAccepted) : m.bytes.length = 137 := by
  unfold OrderAccepted.bytes
  simp

theorem OrderRejected.length_bytes (m : OrderRejected) : m.bytes.length = 27 := by
  unfold OrderRejected.bytes
  simp

theorem OrderReplaced.length_bytes (m : OrderReplaced) : m.bytes.length = 145 := by
  unfold OrderReplaced.bytes
  simp

theorem OrderCanceled.length_bytes (m : OrderCanceled) : m.bytes.length = 37 := by
  unfold OrderCanceled.bytes
  simp

theorem OrderExecuted.length_bytes (m : OrderExecuted) : m.bytes.length = 68 := by
  unfold OrderExecuted.bytes
  simp

theorem MassQuoteAck.length_bytes (m : MassQuoteAck) : m.bytes.length = 52 := by
  unfold MassQuoteAck.bytes
  simp

theorem MassQuoteRejection.length_bytes (m : MassQuoteRejection) : m.bytes.length = 31 := by
  unfold MassQuoteRejection.bytes
  simp

inductive ServerMsg
  | orderAccepted | orderRejected | orderReplaced | orderCanceled | orderExecuted
  | massQuoteAck | massQuoteRejection
deriving DecidableEq

namespace ServerMsg

def typeByte : ServerMsg → UInt8
  | orderAccepted => MsgType.orderAccepted
  | orderRejected => MsgType.orderRejected
  | orderReplaced => MsgType.orderReplaced
  | orderCanceled => MsgType.orderCanceled
  | orderExecuted => MsgType.orderExecuted
  | massQuoteAck => MsgType.massQuoteAck
  | massQuoteRejection => MsgType.massQuoteRejection

/-- `sizeof` of the message's struct. -/
def size : ServerMsg → Nat
  | orderAccepted => 137
  | orderRejected => 27
  | orderReplaced => 145
  | orderCanceled => 37
  | orderExecuted => 68
  | massQuoteAck => 52
  | massQuoteRejection => 31

/-- The cases of the dispatcher's `switch`. -/
def ofType (t : UInt8) : Option ServerMsg :=
  [orderAccepted, orderRejected, orderReplaced, orderCanceled, orderExecuted, massQuoteAck,
    massQuoteRejection].find? (·.typeByte = t)

@[simp] theorem ofType_typeByte (m : ServerMsg) : ofType m.typeByte = some m := by
  cases m <;> decide

theorem size_le (m : ServerMsg) : m.size ≤ 145 := by
  cases m <;> decide

end ServerMsg

end BistColo.Ouch
