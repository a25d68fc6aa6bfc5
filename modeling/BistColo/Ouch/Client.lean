import BistColo.Domain.OrderBook
import BistColo.Domain.Throttler
import BistColo.Domain.TokenRegistry
import BistColo.Ouch.Session
/-!
# The OUCH client

`ouch/client.hpp`. The five calls take their steps in the order of the source;
`now` is what the throttler reads from the steady clock. A client keeps the
messages it handed to its session in `handed`; nothing in the code reads that
back.
-/

open StreamKit

namespace BistColo.Ouch

open Domain

structure PlaceArgs where
  symbol : Bytes := []
  orderBookId : UInt32 := 0
  side : Side := .buy
  quantity : Int64 := 0
  price : Int32 := 0
  tif : TimeInForce := .day
  openClose : OpenClose := .defaultForAccount
  category : ClientCategory := .client
  displayQuantity : Int64 := 0
  clientAccount : Bytes := []
  customerInfo : Bytes := []
  exchangeInfo : Bytes := []
  explicitToken : Bytes := []
  offHours : UInt8 := 0
deriving DecidableEq

structure ReplaceArgs where
  existingToken : Bytes
  newToken : Bytes := []
  newTotalQuantity : Int64 := 0
  newPrice : Int32 := 0
  openClose : OpenClose := .replaceKeep
  category : ClientCategory := .client
  displayQuantity : Int64 := 0
  clientAccount : Bytes := []
  customerInfo : Bytes := []
  exchangeInfo : Bytes := []
deriving DecidableEq

structure QuoteEntryArgs where
  orderBookId : UInt32 := 0
  bidPrice : Int32 := 0
  bidSize : Int64 := 0
  offerPrice : Int32 := 0
  offerSize : Int64 := 0
deriving DecidableEq

structure MassQuoteArgs where
  token : Bytes := []
  category : ClientCategory := .client
  clientAccount : Bytes := []
  exchangeInfo : Bytes := []
  entries : List QuoteEntryArgs
deriving DecidableEq

/-! ## The messages -/

def PlaceArgs.message (args : PlaceArgs) (tok : OrderToken) : EnterOrder where
  messageType := MsgType.enterOrder
  orderToken := tok
  orderBookId := args.orderBookId
  side := args.side.toWire
  quantity := args.quantity.toUInt64
  price := args.price
  timeInForce := args.tif.toWire
  openClose := args.openClose.toWire
  clientAccount := alphaSet 16 args.clientAccount
  customerInfo := alphaSet 15 args.customerInfo
  exchangeInfo := alphaSet 32 args.exchangeInfo
  displayQuantity := args.displayQuantity.toUInt64
  clientCategory := args.category.toWire
  offHours := args.offHours
  smpLevel := 0
  smpMethod := 0
  smpId := zeros 3
  reserved := zeros 2

def PlaceArgs.state (args : PlaceArgs) : Domain.OrderState where
  symbol := args.symbol
  side := args.side
  originalQty := args.quantity
  price := args.price
  tif := args.tif
  status := .pending

def ReplaceArgs.message (args : ReplaceArgs) (next : OrderToken) : ReplaceOrder where
  messageType := MsgType.replaceOrder
  existingOrderToken := OrderToken.ofText args.existingToken
  replacementOrderToken := next
  quantity := args.newTotalQuantity.toUInt64
  price := args.newPrice
  openClose := args.openClose.toWire
  clientAccount := alphaSet 16 args.clientAccount
  customerInfo := alphaSet 15 args.customerInfo
  exchangeInfo := alphaSet 32 args.exchangeInfo
  displayQuantity := args.displayQuantity.toUInt64
  clientCategory := args.category.toWire
  reserved := zeros 8

def QuoteEntryArgs.entry (a : QuoteEntryArgs) : QuoteEntry where
  orderBookId := a.orderBookId
  bidPrice := a.bidPrice
  offerPrice := a.offerPrice
  bidSize := a.bidSize.toUInt64
  offerSize := a.offerSize.toUInt64

def MassQuoteArgs.header (args : MassQuoteArgs) (tok : OrderToken) : MassQuoteHeader where
  messageType := MsgType.massQuote
  orderToken := tok
  clientCategory := args.category.toWire
  clientAccount := alphaSet 16 args.clientAccount
  exchangeInfo := alphaSet 16 args.exchangeInfo
  noQuoteEntries := UInt16.ofNat args.entries.length

/-- The header and its entries in one buffer. -/
def MassQuoteArgs.blob (args : MassQuoteArgs) (tok : OrderToken) : Bytes :=
  (args.header tok).bytes ++ args.entries.flatMap fun a => a.entry.bytes

/-! ## The client -/

structure OuchClient where
  session : OuchSession
  tokens : TokenRegistry
  throttler : Throttler
  book : OrderBook
  handed : List OuchSession.Outgoing := []

namespace OuchClient

open OuchSession (Outgoing)

/-! ## Steps the calls share -/

def tryAcquire (c : OuchClient) (now : UInt64) : Bool × OuchClient :=
  let r := c.throttler.tryAcquire now
  (r.1, { c with throttler := r.2 })

/-- The token of a call: the caller's text if there is one, and else the next
one of the registry. `taken` is the error text for a text that is not new. -/
def claimToken (c : OuchClient) (explicit : Bytes) (taken : String) : Result OrderToken × OuchClient :=
  if explicit ≠ [] then
    let r := c.tokens.registerExternal explicit
    if r.1 = false then (.error (makeError .validation (taken ++ text explicit)), { c with tokens := r.2 })
    else (.ok (OrderToken.ofText explicit), { c with tokens := r.2 })
  else
    let r := c.tokens.allocate
    (.ok r.1, { c with tokens := r.2 })

def withBook (c : OuchClient) (b : OrderBook) : OuchClient := { c with book := b }

/-- Hands a message to the session. -/
def submit (c : OuchClient) (m : Outgoing) : Result Unit × OuchClient :=
  let r := c.session.send m
  (r.1, { c with session := r.2, handed := c.handed ++ [m] })

/-! ## The calls -/

def place (c : OuchClient) (now : UInt64) (args : PlaceArgs) : Result OrderToken × OuchClient :=
  match c.tryAcquire now with
  | (false, c) => (.error (makeError .throttled "throttler bucket empty (>= rate)"), c)
  | (true, c) =>
    match c.claimToken args.explicitToken "token already used: " with
    | (.error e, c) => (.error e, c)
    | (.ok tok, c) =>
      match (c.withBook (c.book.insert tok.view args.state)).submit (.enterOrder (args.message tok)) with
      | (.error e, c) => (.error e, c)
      | (.ok (), c) => (.ok tok, c)

def replace (c : OuchClient) (now : UInt64) (args : ReplaceArgs) : Result OrderToken × OuchClient :=
  if isValidOpenCloseForReplace args.openClose.toWire = false then
    (.error (makeError .validation
      ("OpenClose value illegal in Replace per Spec 4.1.2.2 " ++ "(allowed: ReplaceKeep=0, ReplaceDefault=4)")), c)
  else
    match c.tryAcquire now with
    | (false, c) => (.error (makeError .throttled "throttler empty"), c)
    | (true, c) =>
      if args.existingToken = [] then (.error (makeError .validation "existing_token required"), c)
      else
        match c.claimToken args.newToken "new_token already used: " with
        | (.error e, c) => (.error e, c)
        | (.ok next, c) =>
          match (c.withBook (c.book.setStatus args.existingToken .replacing)).submit
              (.replaceOrder (args.message next)) with
          | (.error e, c) => (.error e, c)
          | (.ok (), c) => (.ok next, c)

def cancelByToken (c : OuchClient) (now : UInt64) (token : Bytes) : Result Unit × OuchClient :=
  match c.tryAcquire now with
  | (false, c) => (.error (makeError .throttled "throttler empty"), c)
  | (true, c) =>
    (c.withBook (c.book.setStatus token .canceling)).submit
      (.cancel ⟨MsgType.cancelOrder, OrderToken.ofText token⟩)

def cancelByOrderId (c : OuchClient) (now : UInt64) (book : UInt32) (side : Side) (id : UInt64) :
    Result Unit × OuchClient :=
  match c.tryAcquire now with
  | (false, c) => (.error (makeError .throttled "throttler empty"), c)
  | (true, c) => c.submit (.cancelById ⟨MsgType.cancelByOrderId, book, side.toWire, id⟩)

/-- The source makes the token first and then looks whether the caller's text
is new. -/
def massQuote (c : OuchClient) (now : UInt64) (args : MassQuoteArgs) : Result OrderToken × OuchClient :=
  if args.entries = [] ∨ maxQuoteEntries < args.entries.length then
    (.error (makeError .validation "MassQuote requires 1..5 entries"), c)
  else
    match c.tryAcquire now with
    | (false, c) => (.error (makeError .throttled "throttler empty"), c)
    | (true, c) =>
      match c.claimToken args.token "MassQuote token already used: " with
      | (.error e, c) => (.error e, c)
      | (.ok tok, c) =>
        match c.submit (.massQuote (args.blob tok)) with
        | (.error e, c) => (.error e, c)
        | (.ok (), c) => (.ok tok, c)

/-! ## Requests -/

inductive Request
  | place (args : PlaceArgs)
  | replace (args : ReplaceArgs)
  | cancelByToken (token : Bytes)
  | cancelByOrderId (book : UInt32) (side : Side) (id : UInt64)
  | massQuote (args : MassQuoteArgs)
deriving DecidableEq

/-- Forgets which token a call returns. -/
def done (r : Result OrderToken × OuchClient) : Result Unit × OuchClient := (r.1.map fun _ => (), r.2)

def call (c : OuchClient) (now : UInt64) : Request → Result Unit × OuchClient
  | .place args => done (c.place now args)
  | .replace args => done (c.replace now args)
  | .cancelByToken token => c.cancelByToken now token
  | .cancelByOrderId book side id => c.cancelByOrderId now book side id
  | .massQuote args => done (c.massQuote now args)

end OuchClient

end BistColo.Ouch
