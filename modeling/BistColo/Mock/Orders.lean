import BistColo.Net.SoupBinTcp
import BistColo.Ouch.Layouts
/-!
# The mock gateway's answers

`OuchMockGateway::handle_unsequenced_payload` of `mock/ouch_gateway.cpp`. A
token in the gateway is the fourteen bytes of the message, a key of
`quote_active_` is the book and the side its text is made of, and
`Gateway.wallNs` stands for the readings of the wall clock. `handlePayload`
takes one payload to the messages it is answered with, each of them sent as
one sequenced packet.
-/

open StreamKit

namespace BistColo.Mock

open Soup Ouch

/-! ## State -/

structure RestingOrder where
  orderBookId : UInt32 := 0
  side : UInt8 := 0
  orderId : UInt64 := 0
deriving DecidableEq

structure Gateway where
  orderIdSeq : UInt64 := 1
  seenTokens : List OrderToken := []
  resting : OrderToken → Option RestingOrder := fun _ => none
  quoteActive : UInt32 × UInt8 → Bool := fun _ => false
  wallNs : Clock

namespace Gateway

def see (g : Gateway) (token : OrderToken) : Gateway := { g with seenTokens := g.seenTokens ++ [token] }

/-- `order_id_seq_++` -/
def nextOrderId (g : Gateway) : UInt64 × Gateway := (g.orderIdSeq, { g with orderIdSeq := g.orderIdSeq + 1 })

def timestamp (g : Gateway) : UInt64 × Gateway :=
  let r := g.wallNs.monotonicNs
  (r.1, { g with wallNs := r.2 })

def rest (g : Gateway) (token : OrderToken) (order : RestingOrder) : Gateway :=
  { g with resting := Function.update g.resting token (some order) }

def erase (g : Gateway) (token : OrderToken) : Gateway :=
  { g with resting := Function.update g.resting token none }

end Gateway

/-! ## Answers -/

namespace RejectCode

def priceOutsideLimits : Int32 := -420131
def tokenNotUnique : Int32 := -800002

end RejectCode

inductive Reply
  | accepted (m : OrderAccepted)
  | rejected (m : OrderRejected)
  | replaced (m : OrderReplaced)
  | canceled (m : OrderCanceled)
  | massQuoteAck (m : MassQuoteAck)
  | massQuoteRejection (m : MassQuoteRejection)
deriving DecidableEq

namespace Reply

def bytes : Reply → Bytes
  | accepted m => m.bytes
  | rejected m => m.bytes
  | replaced m => m.bytes
  | canceled m => m.bytes
  | massQuoteAck m => m.bytes
  | massQuoteRejection m => m.bytes

theorem length_bytes_le (r : Reply) : r.bytes.length ≤ 145 := by
  cases r with
  | accepted m => simp [bytes, m.length_bytes]
  | rejected m => simp [bytes, m.length_bytes]
  | replaced m => simp [bytes, m.length_bytes]
  | canceled m => simp [bytes, m.length_bytes]
  | massQuoteAck m => simp [bytes, m.length_bytes]
  | massQuoteRejection m => simp [bytes, m.length_bytes]

/-- `send_sequenced` -/
def packet (r : Reply) : Packet where
  packetType := Pkt.sequencedData
  payload := r.bytes
  fits := r.length_bytes_le.trans (by decide)

end Reply

namespace Gateway

/-! ## Enter order -/

/-- The `reject` of the enter order branch. -/
def rejectOrder (g : Gateway) (eo : EnterOrder) (code : Int32) : List Reply × Gateway :=
  let (now, g) := g.timestamp
  ([.rejected ⟨MsgType.orderRejected, now, eo.orderToken, code⟩], g)

def acceptedMessage (eo : EnterOrder) (oid now : UInt64) : OrderAccepted where
  messageType := MsgType.orderAccepted
  timestampNs := now
  orderToken := eo.orderToken
  orderBookId := eo.orderBookId
  side := eo.side
  orderId := oid
  quantity := eo.quantity
  price := eo.price
  timeInForce := eo.timeInForce
  openClose := eo.openClose
  clientAccount := eo.clientAccount
  orderState := OrderState.onBook.toWire
  customerInfo := eo.customerInfo
  exchangeInfo := eo.exchangeInfo
  preTradeQuantity := eo.quantity
  displayQuantity := eo.displayQuantity
  clientCategory := eo.clientCategory
  offHours := eo.offHours
  -- the source does not copy the self-match prevention fields
  smpLevel := 0
  smpMethod := 0
  smpId := zeros 3

def enterOrder (g : Gateway) (eo : EnterOrder) : List Reply × Gateway :=
  if eo.orderToken ∈ g.seenTokens then g.rejectOrder eo RejectCode.tokenNotUnique
  else
    let g := g.see eo.orderToken
    if 9000 < eo.price then g.rejectOrder eo RejectCode.priceOutsideLimits
    else
      let (oid, g) := g.nextOrderId
      let (now, g) := g.timestamp
      -- only day orders rest
      ([.accepted (acceptedMessage eo oid now)],
        if eo.timeInForce = 0 then g.rest eo.orderToken ⟨eo.orderBookId, eo.side, oid⟩ else g)

/-! ## Cancel -/

def cancelOrder (g : Gateway) (co : CancelOrder) : List Reply × Gateway :=
  let (now, g) := g.timestamp
  match g.resting co.orderToken with
  | none => ([.canceled ⟨MsgType.orderCanceled, now, co.orderToken, 0, 0, 0, 1⟩], g)
  | some o =>
    ([.canceled ⟨MsgType.orderCanceled, now, co.orderToken, o.orderBookId, o.side, o.orderId, 1⟩], g.erase co.orderToken)

def cancelByOrderId (g : Gateway) (cy : CancelByOrderId) : List Reply × Gateway :=
  let (now, g) := g.timestamp
  ([.canceled ⟨MsgType.orderCanceled, now, zeros 14, cy.orderBookId, cy.side, cy.orderId, 1⟩], g)

/-! ## Replace -/

def replacedMessage (ro : ReplaceOrder) (oid now : UInt64) (book : UInt32) (side : UInt8) : OrderReplaced where
  messageType := MsgType.orderReplaced
  timestampNs := now
  replacementOrderToken := ro.replacementOrderToken
  previousOrderToken := ro.existingOrderToken
  orderBookId := book
  side := side
  orderId := oid
  quantity := ro.quantity
  price := ro.price
  timeInForce := 0
  openClose := ro.openClose
  clientAccount := ro.clientAccount
  orderState := OrderState.onBook.toWire
  customerInfo := ro.customerInfo
  exchangeInfo := ro.exchangeInfo
  preTradeQuantity := ro.quantity
  displayQuantity := ro.displayQuantity
  clientCategory := ro.clientCategory

def replaceOrder (g : Gateway) (ro : ReplaceOrder) : List Reply × Gateway :=
  let (oid, g) := g.nextOrderId
  let (now, g) := g.timestamp
  let old := (g.resting ro.existingOrderToken).getD {}
  ([.replaced (replacedMessage ro oid now old.orderBookId old.side)],
    (g.erase ro.existingOrderToken).rest ro.replacementOrderToken ⟨old.orderBookId, old.side, oid⟩)

/-! ## Mass quote -/

def bidActive (e : QuoteEntry) : Bool := 0 < e.bidSize && 0 < e.bidPrice
def offerActive (e : QuoteEntry) : Bool := 0 < e.offerSize && 0 < e.offerPrice
def crossed (e : QuoteEntry) : Bool := bidActive e && offerActive e && e.offerPrice ≤ e.bidPrice

/-- `status_for_side` -/
def statusForSide (g : Gateway) (key : UInt32 × UInt8) (activeNow : Bool) : MassQuoteStatus × Gateway :=
  (if activeNow then if g.quoteActive key then .updated else .accept else .canceled,
    { g with quoteActive := Function.update g.quoteActive key activeNow })

/-- The acknowledgement of one side of an entry. -/
def ackSide (g : Gateway) (token : OrderToken) (book : UInt32) (side : UInt8) (size : UInt64) (price : Int32)
    (activeNow : Bool) : Reply × Gateway :=
  let (now, g) := g.timestamp
  let (status, g) := g.statusForSide (book, side) activeNow
  (.massQuoteAck ⟨MsgType.massQuoteAck, now, token, book, size, 0, price, side, status.toWire⟩, g)

def quoteEntry (g : Gateway) (token : OrderToken) (e : QuoteEntry) : List Reply × Gateway :=
  if crossed e then
    let (now, g) := g.timestamp
    ([.massQuoteRejection ⟨MsgType.massQuoteRejection, now, token, e.orderBookId, RejectCode.priceOutsideLimits⟩], g)
  else
    let (bid, g) := g.ackSide token e.orderBookId Side.buy.toWire e.bidSize e.bidPrice (bidActive e)
    let (offer, g) := g.ackSide token e.orderBookId Side.sell.toWire e.offerSize e.offerPrice (offerActive e)
    ([bid, offer], g)

def quoteEntries (g : Gateway) (token : OrderToken) : List QuoteEntry → List Reply × Gateway
  | [] => ([], g)
  | e :: es =>
    let r := g.quoteEntry token e
    let s := r.2.quoteEntries token es
    (r.1 ++ s.1, s.2)

/-- The header and the entries it counts, each 28 bytes behind the other. What
lies behind the payload reads as zeros. -/
def readMassQuote (payload : Bytes) : MassQuoteHeader × List QuoteEntry :=
  let hdr := MassQuoteHeader.read payload
  (hdr, (List.range hdr.noQuoteEntries.toNat).map fun i => QuoteEntry.read (payload.drop (50 + 28 * i)))

def massQuote (g : Gateway) (payload : Bytes) : List Reply × Gateway :=
  let (hdr, entries) := readMassQuote payload
  g.quoteEntries hdr.orderToken entries

/-! ## Payloads -/

def handlePayload (g : Gateway) (payload : Bytes) : List Reply × Gateway :=
  match payload.head? with
  | none => ([], g)
  | some type =>
    if type = MsgType.enterOrder then
      if payload.length ≠ 114 then ([], g) else g.enterOrder (EnterOrder.read payload)
    else if type = MsgType.cancelOrder then
      if payload.length ≠ 15 then ([], g) else g.cancelOrder (CancelOrder.read payload)
    else if type = MsgType.cancelByOrderId then
      if payload.length ≠ 14 then ([], g) else g.cancelByOrderId (CancelByOrderId.read payload)
    else if type = MsgType.replaceOrder then
      if payload.length ≠ 122 then ([], g) else g.replaceOrder (ReplaceOrder.read payload)
    else if type = MsgType.massQuote then
      if payload.length < 50 + 28 then ([], g) else g.massQuote payload
    else ([], g)

end Gateway

end BistColo.Mock
