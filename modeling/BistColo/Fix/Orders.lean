import BistColo.Fix.AcceptorMock
import BistColo.Fix.Facade
import BistColo.StreamKit.Exchange
/-!
# Orders over FIX

The messages that `OeApp` and `RdApp` send, what `AcceptorMockApp` answers, and
the events that the applications make of the answers (`fix/internal/oe_app.hpp`,
`rd_app.hpp`, `acceptor_mock.hpp`, `converters.hpp`). Doubles and their texts are
the compiler's and QuickFIX's, and a parameter. Whatever the state of the acceptor,
its answer reports the request (`reports_answer`), with ids that no other answer
has (`gives_fromApp`).
-/

open StreamKit

namespace BistColo.Fix

/-! ## Messages -/

inductive MsgType
  | newOrderSingle | orderCancelRequest | orderCancelReplaceRequest | tradeCaptureReport | applicationMessageRequest
  | executionReport | tradeCaptureReportAck | applicationMessageRequestAck
deriving DecidableEq

inductive Tag
  | clOrdId | origClOrdId | symbol | side | orderQty | ordType | price | timeInForce | account | maxFloor
  | execId | orderId | execType | ordStatus | leavesQty | cumQty | avgPx | lastQty | lastPx | trdType | text
  | tradeReportId | tradeReportRefId | trdRptStatus | noSides | noPartyIds | partyId | partyIdSource | partyRole
  | applReqId | applReqType | applResponseId | applResponseType
deriving DecidableEq

/-- The fields of a message or of an entry of a group, as texts. -/
abbrev FieldMap := Tag → Option Bytes

structure Message where
  msgType : MsgType
  fields : FieldMap := fun _ => none
  groups : List (Tag × FieldMap) := []

namespace Message

def set (m : Message) (tag : Tag) (value : Bytes) : Message :=
  { m with fields := Function.update m.fields tag (some value) }

/-- A field that is only set if there is a value for it. -/
def setIf (m : Message) (tag : Tag) (value : Option Bytes) : Message :=
  match value with
  | none => m
  | some value => m.set tag value

def addGroup (m : Message) (tag : Tag) (fields : FieldMap) : Message := { m with groups := m.groups ++ [(tag, fields)] }

@[simp] theorem msgType_set (m : Message) (tag : Tag) (value : Bytes) : (m.set tag value).msgType = m.msgType := rfl

@[simp] theorem fields_set (m : Message) (tag t : Tag) (value : Bytes) :
    (m.set tag value).fields t = if t = tag then some value else m.fields t := by
  simp [set, Function.update_apply]

@[simp] theorem msgType_setIf (m : Message) (tag : Tag) (value : Option Bytes) : (m.setIf tag value).msgType = m.msgType := by
  cases value <;> rfl

@[simp] theorem fields_setIf (m : Message) (tag t : Tag) (value : Option Bytes) :
    (m.setIf tag value).fields t = if t = tag then value.or (m.fields t) else m.fields t := by
  cases value <;> simp [setIf]

@[simp] theorem msgType_addGroup (m : Message) (tag : Tag) (fields : FieldMap) :
    (m.addGroup tag fields).msgType = m.msgType := rfl

@[simp] theorem fields_addGroup (m : Message) (tag : Tag) (fields : FieldMap) :
    (m.addGroup tag fields).fields = m.fields := rfl

end Message

/-- The doubles of the compiler, and QuickFIX's texts for them. -/
structure Doubles where
  Double : Type
  ofQuantity : Int64 → Double
  toQuantity : Double → Int64
  ofPrice : Int32 → Double
  /-- without the fraction -/
  toPrice : Double → Int32
  one : Double
  ten : Double
  half : Double
  minusHalf : Double
  add : Double → Double → Double
  mul : Double → Double → Double
  div : Double → Double → Double
  nonneg : Double → Bool
  convert : Double → Bytes
  read : Bytes → Option Double

/-- The quantity can be read back from its field. -/
def Doubles.Carries (D : Doubles) (q : Int64) : Prop :=
  D.read (D.convert (D.ofQuantity q)) = some (D.ofQuantity q) ∧ D.toQuantity (D.ofQuantity q) = q

/-! ## Conversions -/

namespace Doubles

variable (D : Doubles)

/-- The loop over the decimals. Where they are negative it makes no turn. -/
def scale (decimals : Int8) : D.Double := (List.range decimals.toInt.toNat).foldl (fun scale _ => D.mul scale D.ten) D.one

def toFixPrice (v : Int32) (decimals : Int8) : D.Double := D.div (D.ofPrice v) (D.scale decimals)

def fromFixPrice (v : D.Double) (decimals : Int8) : Int32 :=
  D.toPrice (D.add (D.mul v (D.scale decimals)) (if D.nonneg v then D.half else D.minusHalf))

end Doubles

def fixSide : Side → UInt8
  | .buy => 49
  | .sell => 50
  | .shortSell => 53

def bistSide (c : UInt8) : Side := if c = 49 then .buy else if c = 50 then .sell else if c = 53 then .shortSell else .buy

def fixOrdType : OrdType → UInt8
  | .limit => 50
  | .market => 49
  | .marketToLimit => 75
  | .imbalance => 77
  | .midpointLimit => 80
  | .midpointMarket => 81

def fixTif : TimeInForce → UInt8
  | .day => 48
  | .immediateOrCancel => 51
  | .fillOrKill => 52

@[simp] theorem bistSide_fixSide (s : Side) : bistSide (fixSide s) = s := by
  cases s <;> decide

theorem fixSide_shortSell (s : Side) : fixSide s = 53 ↔ s = .shortSell := by
  cases s <;> decide

/-- A field of one character. -/
def readChar : Bytes → Option UInt8
  | [c] => some c
  | _ => none

/-! ## The send side -/

structure TradeReportArgs where
  tradeReportId : Bytes
  tradeReportRefId : Bytes
  symbol : Bytes
  side : Side := .buy
  quantity : Int64 := 0
  price : Int32 := 0
  priceDecimals : Int8 := 3
  counterpartyId : Bytes
deriving DecidableEq

def nonEmpty (text : Bytes) : Option Bytes := if text = [] then none else some text

/-- A `NoPartyIDs` group of a proprietary code. -/
def party (id : Bytes) (role : Nat) : FieldMap :=
  Function.update (Function.update (Function.update (fun _ => none) .partyId (some id)) .partyIdSource (some (ascii "D")))
    .partyRole (some (decText role))

def addParty (m : Message) (id : Bytes) (role : Nat) : Message :=
  if id = [] then m else m.addGroup .noPartyIds (party id role)

@[simp] theorem msgType_addParty (m : Message) (id : Bytes) (role : Nat) : (addParty m id role).msgType = m.msgType := by
  unfold addParty
  split <;> rfl

@[simp] theorem fields_addParty (m : Message) (id : Bytes) (role : Nat) : (addParty m id role).fields = m.fields := by
  unfold addParty
  split <;> rfl

namespace OeApp

variable (D : Doubles)

def place (a : PlaceArgs) : Message :=
  let m : Message := { msgType := .newOrderSingle }
  let m := (((m.set .clOrdId a.clOrdId).set .symbol a.symbol).set .side [fixSide a.side]).set .orderQty
    (D.convert (D.ofQuantity a.quantity))
  let m := (m.set .ordType [fixOrdType a.ordType]).setIf .price
    (if a.ordType ≠ .market ∧ a.ordType ≠ .marketToLimit then some (D.convert (D.toFixPrice a.price a.priceDecimals))
      else none)
  let m := ((m.set .timeInForce [fixTif a.tif]).setIf .account (nonEmpty a.account)).setIf .maxFloor
    (if 0 < a.displayQuantity then some (D.convert (D.ofQuantity a.displayQuantity)) else none)
  addParty m a.afk 76

def cancel (a : CancelArgs) : Message :=
  let m : Message := { msgType := .orderCancelRequest }
  ((((m.set .clOrdId a.clOrdId).set .origClOrdId a.origClOrdId).set .symbol a.symbol).set .side [fixSide a.side]).set
    .orderQty (D.convert (D.ofQuantity a.quantity))

def replace (a : ReplaceArgs) : Message :=
  let m : Message := { msgType := .orderCancelReplaceRequest }
  let m := (((m.set .clOrdId a.clOrdId).set .origClOrdId a.origClOrdId).set .symbol a.symbol).set .side [fixSide a.side]
  ((m.set .orderQty (D.convert (D.ofQuantity a.newQuantity))).set .ordType [fixOrdType a.ordType]).setIf .price
    (if a.ordType ≠ .market then some (D.convert (D.toFixPrice a.newPrice a.priceDecimals)) else none)

def tradeReport (a : TradeReportArgs) : Message :=
  let m : Message := { msgType := .tradeCaptureReport }
  let m := ((m.set .tradeReportId a.tradeReportId).setIf .tradeReportRefId (nonEmpty a.tradeReportRefId)).set .symbol
    a.symbol
  let m := (m.set .lastQty (D.convert (D.ofQuantity a.quantity))).set .lastPx
    (D.convert (D.toFixPrice a.price a.priceDecimals))
  addParty (m.addGroup .noSides (Function.update (fun _ => none) .side (some [fixSide a.side]))) a.counterpartyId 1

end OeApp

/-- `RdApp::subscribe_all`, with `RequestAndSubscribe`. -/
def RdApp.subscribeAll (applReqId : Bytes) : Message :=
  let m : Message := { msgType := .applicationMessageRequest }
  (m.set .applReqId applReqId).set .applReqType (decText 3)

inductive Request
  | place (a : PlaceArgs)
  | cancel (a : CancelArgs)
  | replace (a : ReplaceArgs)
  | tradeReport (a : TradeReportArgs)
  | subscribeAll (applReqId : Bytes)
deriving DecidableEq

namespace Request

def message (D : Doubles) : Request → Message
  | place a => OeApp.place D a
  | cancel a => OeApp.cancel D a
  | replace a => OeApp.replace D a
  | tradeReport a => OeApp.tradeReport D a
  | subscribeAll applReqId => RdApp.subscribeAll applReqId

/-- The application that makes it. -/
def client : Request → Client
  | subscribeAll _ => .rd
  | _ => .oe

/-- What the call returns. -/
def id : Request → Bytes
  | place a => a.clOrdId
  | cancel a => a.clOrdId
  | replace a => a.clOrdId
  | tradeReport a => a.tradeReportId
  | subscribeAll applReqId => applReqId

def notBound (r : Request) : String := if r.client = .rd then "FIX RD not bound" else "FIX OE not bound"

/-- The checks of a call and of `send_or_error`: `known` is whether QuickFIX finds the session. -/
def submit (r : Request) (bound known : Bool) : Result Bytes :=
  if bound = false then .error (makeError .stateMismatch r.notBound)
  else if known = false then .error (makeError .stateMismatch "FIX session not found")
  else .ok r.id

end Request

/-! ## The acceptor -/

/-- The fields that an answer takes over. -/
def copyBasic (src dst : Message) : Message :=
  (((dst.setIf .clOrdId (src.fields .clOrdId)).setIf .origClOrdId (src.fields .origClOrdId)).setIf .symbol
    (src.fields .symbol)).setIf .side (src.fields .side)

namespace AcceptorMockApp

variable (D : Doubles)

/-- `OrderQty`, or 0 if it cannot be read. -/
def orderQty (m : Message) : D.Double := ((m.fields .orderQty).bind D.read).getD (D.ofQuantity 0)

/-- An execution report, with an id for itself and one for the order. -/
def execution (app : AcceptorMockApp) (m : Message) (execType ordStatus : UInt8) (leaves : D.Double) :
    Message × AcceptorMockApp :=
  let e := app.nextId (ascii "E")
  let o := e.2.nextId (ascii "O")
  let er := ((copyBasic m { msgType := .executionReport }).set .execId e.1).set .orderId o.1
  let er := ((er.set .execType [execType]).set .ordStatus [ordStatus]).set .leavesQty (D.convert leaves)
  ((er.set .cumQty (D.convert (D.ofQuantity 0))).set .avgPx (D.convert (D.ofQuantity 0)), o.2)

def onNewOrderSingle (app : AcceptorMockApp) (m : Message) : Message × AcceptorMockApp :=
  let er := app.execution D m 48 48 (orderQty D m)
  if (m.fields .side).bind readChar = some 53 then ((er.1.set .trdType (ascii "2")).set .text (ascii "short_sell"), er.2)
  else er

def onOrderCancelRequest (app : AcceptorMockApp) (m : Message) : Message × AcceptorMockApp :=
  app.execution D m 52 52 (D.ofQuantity 0)

def onOrderCancelReplaceRequest (app : AcceptorMockApp) (m : Message) : Message × AcceptorMockApp :=
  app.execution D m 53 48 (orderQty D m)

def onTradeCaptureReport (app : AcceptorMockApp) (m : Message) : Message × AcceptorMockApp :=
  let ack : Message := { msgType := .tradeCaptureReportAck }
  (((ack.setIf .tradeReportId (m.fields .tradeReportId)).setIf .symbol (m.fields .symbol)).set .trdRptStatus (decText 0), app)

/-- The answer to a request for reference data, as a message. -/
def answerRequest (app : AcceptorMockApp) (s : Bytes) (m : Message) : Message × AcceptorMockApp :=
  let p := app.onApplicationMessageRequest s ((m.fields .applReqId).getD [])
  let ack : Message := { msgType := .applicationMessageRequestAck }
  ((((ack.set .applResponseId p.1.applResponseId).setIf .applReqId p.1.applReqId).set .applResponseType
    (decText p.1.applResponseType)).set .text p.1.text, p.2)

/-- `fromApp`: a message that it does not know is not answered. -/
def fromApp (app : AcceptorMockApp) (s : Bytes) (m : Message) : Option Message × AcceptorMockApp :=
  match m.msgType with
  | .newOrderSingle => ((app.onNewOrderSingle D m).1, (app.onNewOrderSingle D m).2)
  | .orderCancelRequest => ((app.onOrderCancelRequest D m).1, (app.onOrderCancelRequest D m).2)
  | .orderCancelReplaceRequest => ((app.onOrderCancelReplaceRequest D m).1, (app.onOrderCancelReplaceRequest D m).2)
  | .tradeCaptureReport => ((app.onTradeCaptureReport m).1, (app.onTradeCaptureReport m).2)
  | .applicationMessageRequest => ((app.answerRequest s m).1, (app.answerRequest s m).2)
  | _ => (none, app)

end AcceptorMockApp

/-! ## The events -/

/-- What a callback of an application gets. -/
inductive Delivered
  | execution (ev : ExecutionReportEvent)
  | amrAck (ok : Bool) (text : Bytes)
deriving DecidableEq

/-- The field as a quantity, or 0. -/
def quantityOf (D : Doubles) (m : Message) (tag : Tag) : Int64 := (((m.fields tag).bind D.read).map D.toQuantity).getD 0

/-- `onMessage(ExecutionReport)` of `OeApp`. -/
def OeApp.onExecutionReport (D : Doubles) (m : Message) : ExecutionReportEvent where
  clOrdId := (m.fields .clOrdId).getD []
  origClOrdId := (m.fields .origClOrdId).getD []
  execId := (m.fields .execId).getD []
  orderId := (m.fields .orderId).getD []
  symbol := (m.fields .symbol).getD []
  side := (((m.fields .side).bind readChar).map bistSide).getD .buy
  execType := ((m.fields .execType).bind readChar).getD 0
  ordStatus := ((m.fields .ordStatus).bind readChar).getD 0
  leavesQty := quantityOf D m .leavesQty
  cumQty := quantityOf D m .cumQty
  lastQty := quantityOf D m .lastQty
  lastPrice := (((m.fields .lastPx).bind D.read).map fun p => D.fromFixPrice p 3).getD 0
  text := (m.fields .text).getD []

/-- `handle_amr_ack` -/
def RdApp.handleAmrAck (m : Message) : Bool × Bytes :=
  let text := (m.fields .text).getD []
  (!decide (ascii "Duplicate" <:+: text), text)

/-- `fromApp` of the applications. Other messages are not for a callback. -/
def received (D : Doubles) (c : Client) (m : Message) : Option Delivered :=
  match c, m.msgType with
  | .oe, .executionReport => some (.execution (OeApp.onExecutionReport D m))
  | .rd, .applicationMessageRequestAck => some (.amrAck (RdApp.handleAmrAck m).1 (RdApp.handleAmrAck m).2)
  | _, _ => none

/-! ## What an answer reports -/

/-- The report is that of an order with these values. -/
structure Tells (D : Doubles) (ev : ExecutionReportEvent) (clOrdId origClOrdId symbol : Bytes) (side : Side)
    (execType ordStatus : UInt8) (leaves : Int64) (text : Bytes) : Prop where
  clOrdId : ev.clOrdId = clOrdId
  origClOrdId : ev.origClOrdId = origClOrdId
  symbol : ev.symbol = symbol
  side : ev.side = side
  execType : ev.execType = execType
  ordStatus : ev.ordStatus = ordStatus
  leavesQty : D.Carries leaves → ev.leavesQty = leaves
  text : ev.text = text

/-- What a callback gets is the report of a request: a new, canceled or replaced
order, nothing for a trade report, and for a subscription the text that goes with
its success. -/
def Reports (D : Doubles) : Request → Option Delivered → Prop
  | .place a, some (.execution ev) =>
    Tells D ev a.clOrdId [] a.symbol a.side 48 48 a.quantity (if a.side = .shortSell then ascii "short_sell" else [])
  | .cancel a, some (.execution ev) => Tells D ev a.clOrdId a.origClOrdId a.symbol a.side 52 52 0 []
  | .replace a, some (.execution ev) => Tells D ev a.clOrdId a.origClOrdId a.symbol a.side 53 48 a.newQuantity []
  | .tradeReport _, none => True
  | .subscribeAll _, some (.amrAck ok text) =>
    text = ascii (if ok then "Request successfully processed" else "Duplicate Application ID")
  | _, _ => False

section Answers

variable {D : Doubles}

theorem orderQty_eq {m : Message} {q : Int64} (hq : D.Carries q) (hm : m.fields .orderQty = some (D.convert (D.ofQuantity q))) :
    AcceptorMockApp.orderQty D m = D.ofQuantity q := by
  simp [AcceptorMockApp.orderQty, hm, hq.1]

theorem quantityOf_eq {m : Message} {tag : Tag} {q : Int64} (hq : D.Carries q)
    (hm : m.fields tag = some (D.convert (D.ofQuantity q))) : quantityOf D m tag = q := by
  simp [quantityOf, hm, hq.1, hq.2]

/-- An execution report is read as it was written. -/
theorem tells_execution (app : AcceptorMockApp) {m : Message} {clOrdId symbol : Bytes} {side : Side} {leaves : Int64}
    {double : D.Double} (hcl : m.fields .clOrdId = some clOrdId) (hsymbol : m.fields .symbol = some symbol)
    (hside : m.fields .side = some [fixSide side]) (hleaves : D.Carries leaves → double = D.ofQuantity leaves)
    (execType ordStatus : UInt8) :
    Tells D (OeApp.onExecutionReport D (app.execution D m execType ordStatus double).1) clOrdId
      ((m.fields .origClOrdId).getD []) symbol side execType ordStatus leaves [] := by
  constructor
  case leavesQty =>
    intro hq
    apply quantityOf_eq hq
    simp [AcceptorMockApp.execution, hleaves hq]
  all_goals simp [OeApp.onExecutionReport, AcceptorMockApp.execution, copyBasic, readChar, hcl, hsymbol, hside]

/-- The two fields of a short sale change nothing but the text. -/
theorem onExecutionReport_withText (er : Message) (trdType text : Bytes) :
    OeApp.onExecutionReport D ((er.set .trdType trdType).set .text text) =
      { OeApp.onExecutionReport D er with text := text } := by
  simp [OeApp.onExecutionReport, quantityOf]

theorem Tells.withText {ev : ExecutionReportEvent} {clOrdId origClOrdId symbol text : Bytes} {side : Side}
    {execType ordStatus : UInt8} {leaves : Int64}
    (h : Tells D ev clOrdId origClOrdId symbol side execType ordStatus leaves text) (text' : Bytes) :
    Tells D { ev with text := text' } clOrdId origClOrdId symbol side execType ordStatus leaves text' :=
  ⟨h.clOrdId, h.origClOrdId, h.symbol, h.side, h.execType, h.ordStatus, h.leavesQty, rfl⟩

theorem received_execution (app : AcceptorMockApp) (m : Message) (execType ordStatus : UInt8) (double : D.Double) :
    received D .oe (app.execution D m execType ordStatus double).1 =
      some (.execution (OeApp.onExecutionReport D (app.execution D m execType ordStatus double).1)) := by
  simp [received, AcceptorMockApp.execution, copyBasic]

theorem reports_place (app : AcceptorMockApp) (a : PlaceArgs) :
    Reports D (.place a) (received D .oe (app.onNewOrderSingle D (OeApp.place D a)).1) := by
  have hcl : (OeApp.place D a).fields .clOrdId = some a.clOrdId := by simp [OeApp.place]
  have hsymbol : (OeApp.place D a).fields .symbol = some a.symbol := by simp [OeApp.place]
  have hside : (OeApp.place D a).fields .side = some [fixSide a.side] := by simp [OeApp.place]
  have hqty : (OeApp.place D a).fields .orderQty = some (D.convert (D.ofQuantity a.quantity)) := by simp [OeApp.place]
  have horig : (OeApp.place D a).fields .origClOrdId = none := by simp [OeApp.place]
  have htells := tells_execution app hcl hsymbol hside (fun hq => orderQty_eq hq hqty) 48 48
  rw [horig] at htells
  have hread : ((OeApp.place D a).fields .side).bind readChar = some 53 ↔ a.side = .shortSell := by
    rw [hside, ← fixSide_shortSell]
    simp [readChar]
  unfold AcceptorMockApp.onNewOrderSingle
  by_cases hshort : a.side = .shortSell
  · dsimp only
    rw [if_pos (hread.2 hshort)]
    have htext := htells.withText (ascii "short_sell")
    rw [← onExecutionReport_withText _ (ascii "2")] at htext
    simpa [Reports, received, AcceptorMockApp.execution, copyBasic, hshort] using htext
  · dsimp only
    rw [if_neg (mt hread.1 hshort), received_execution, Reports, if_neg hshort]
    exact htells

theorem reports_cancel (app : AcceptorMockApp) (a : CancelArgs) :
    Reports D (.cancel a) (received D .oe (app.onOrderCancelRequest D (OeApp.cancel D a)).1) := by
  have hcl : (OeApp.cancel D a).fields .clOrdId = some a.clOrdId := by simp [OeApp.cancel]
  have hsymbol : (OeApp.cancel D a).fields .symbol = some a.symbol := by simp [OeApp.cancel]
  have hside : (OeApp.cancel D a).fields .side = some [fixSide a.side] := by simp [OeApp.cancel]
  have horig : (OeApp.cancel D a).fields .origClOrdId = some a.origClOrdId := by simp [OeApp.cancel]
  have hleaves : D.Carries 0 → D.ofQuantity 0 = D.ofQuantity 0 := fun _ => rfl
  have htells := tells_execution app hcl hsymbol hside hleaves 52 52
  rw [horig] at htells
  rw [AcceptorMockApp.onOrderCancelRequest, received_execution, Reports]
  exact htells

theorem reports_replace (app : AcceptorMockApp) (a : ReplaceArgs) :
    Reports D (.replace a) (received D .oe (app.onOrderCancelReplaceRequest D (OeApp.replace D a)).1) := by
  have hcl : (OeApp.replace D a).fields .clOrdId = some a.clOrdId := by simp [OeApp.replace]
  have hsymbol : (OeApp.replace D a).fields .symbol = some a.symbol := by simp [OeApp.replace]
  have hside : (OeApp.replace D a).fields .side = some [fixSide a.side] := by simp [OeApp.replace]
  have hqty : (OeApp.replace D a).fields .orderQty = some (D.convert (D.ofQuantity a.newQuantity)) := by
    simp [OeApp.replace]
  have horig : (OeApp.replace D a).fields .origClOrdId = some a.origClOrdId := by simp [OeApp.replace]
  have htells := tells_execution app hcl hsymbol hside (fun hq => orderQty_eq hq hqty) 53 48
  rw [horig] at htells
  rw [AcceptorMockApp.onOrderCancelReplaceRequest, received_execution, Reports]
  exact htells

theorem reports_subscribeAll (app : AcceptorMockApp) (s applReqId : Bytes) :
    Reports D (.subscribeAll applReqId) (received D .rd (app.answerRequest s (RdApp.subscribeAll applReqId)).1) := by
  have hsuccess : ¬ ascii "Duplicate" <:+: ascii "Request successfully processed" := by decide +kernel
  have hduplicate : ascii "Duplicate" <:+: ascii "Duplicate Application ID" := by decide +kernel
  have hack : received D .rd (app.answerRequest s (RdApp.subscribeAll applReqId)).1 =
      some (.amrAck (!decide (ascii "Duplicate" <:+: (app.onApplicationMessageRequest s applReqId).1.text))
        (app.onApplicationMessageRequest s applReqId).1.text) := by
    simp [received, AcceptorMockApp.answerRequest, RdApp.subscribeAll, RdApp.handleAmrAck]
  rw [hack, AcceptorMockApp.onApplicationMessageRequest, Reports]
  by_cases hdup : (app.judge s applReqId).1 = true
  · simp [hdup, hduplicate]
  · simp [hdup, hsuccess]

/-- Whatever the state of the acceptor, its answer reports the request. -/
theorem reports_answer (app : AcceptorMockApp) (s : Bytes) (r : Request) :
    ∃ m, (app.fromApp D s (r.message D)).1 = some m ∧ Reports D r (received D r.client m) := by
  have htype : (r.message D).msgType = match r with
      | .place _ => .newOrderSingle
      | .cancel _ => .orderCancelRequest
      | .replace _ => .orderCancelReplaceRequest
      | .tradeReport _ => .tradeCaptureReport
      | .subscribeAll _ => .applicationMessageRequest := by
    cases r <;> simp [Request.message, OeApp.place, OeApp.cancel, OeApp.replace, OeApp.tradeReport, RdApp.subscribeAll]
  unfold AcceptorMockApp.fromApp
  rw [htype]
  cases r with
  | place a => exact ⟨_, rfl, reports_place app a⟩
  | cancel a => exact ⟨_, rfl, reports_cancel app a⟩
  | replace a => exact ⟨_, rfl, reports_replace app a⟩
  | tradeReport a =>
    refine ⟨_, rfl, ?_⟩
    have hnone : received D .oe (app.onTradeCaptureReport (OeApp.tradeReport D a)).1 = none := by
      simp [received, AcceptorMockApp.onTradeCaptureReport]
    rw [show Request.client (.tradeReport a) = .oe from rfl, Request.message, hnone]
    trivial
  | subscribeAll applReqId => exact ⟨_, rfl, reports_subscribeAll app s applReqId⟩

end Answers

/-! ## The ids of an answer -/

/-- The ids that an answer was given. -/
def Message.ids (m : Message) : List Bytes := [Tag.execId, .orderId, .applResponseId].filterMap m.fields

theorem Message.ids_set (m : Message) {tag : Tag} (h : tag ∉ [Tag.execId, .orderId, .applResponseId]) (value : Bytes) :
    (m.set tag value).ids = m.ids := by
  apply List.filterMap_congr
  intro t ht
  rw [fields_set, if_neg]
  rintro rfl
  exact h ht

/-- An id made of one of the numbers after `low`, up to `high`. -/
def Numbered (low high : Nat) (id : Bytes) : Prop :=
  ∃ n, low < n ∧ n ≤ high ∧ ∃ pre ∈ [ascii "E", ascii "O", ascii "AR"], id = pre ++ decText n

/-- An id has one number. -/
theorem numbered_apart {a b c : Nat} (hbc : b ≤ c) {id : Bytes} (h : Numbered a b id) {d : Nat} : ¬ Numbered c d id := by
  obtain ⟨n, -, hn, pre, hpre, rfl⟩ := h
  rintro ⟨m, hm, -, pre', hpre', heq⟩
  have hsame : pre = pre' := by
    have hhead := congrArg List.head? heq
    simp only [List.mem_cons, List.not_mem_nil, or_false] at hpre hpre'
    rcases hpre with rfl | rfl | rfl <;> rcases hpre' with rfl | rfl | rfl <;> first | rfl | cases hhead
  rw [hsame, List.append_cancel_left_eq] at heq
  have hnum := congrArg (readDigits 0) heq
  rw [readDigits_decText, readDigits_decText] at hnum
  omega

theorem Numbered.mono {a b a' b' : Nat} {id : Bytes} (h : Numbered a b id) (ha : a' ≤ a) (hb : b ≤ b') :
    Numbered a' b' id := by
  obtain ⟨n, hlow, hhigh, hid⟩ := h
  exact ⟨n, by omega, by omega, hid⟩

theorem toNat_counter {n : UInt64} (h : n.toNat + 1 < 2 ^ 64) : (n + 1).toNat = n.toNat + 1 := by
  rw [UInt64.toNat_add, UInt64.toNat_one, Nat.mod_eq_of_lt h]

/-- The counter counts the ids that an answer was given. -/
structure Gives (app app' : AcceptorMockApp) (ids : List Bytes) : Prop where
  counts : app'.idCounter.toNat = app.idCounter.toNat + ids.length
  few : ids.length ≤ 2
  nodup : ids.Nodup
  numbered : ∀ id ∈ ids, Numbered app.idCounter.toNat app'.idCounter.toNat id

theorem gives_execution (D : Doubles) {app : AcceptorMockApp} (h : app.idCounter.toNat + 2 < 2 ^ 64) (m : Message)
    (execType ordStatus : UInt8) (double : D.Double) :
    Gives app (app.execution D m execType ordStatus double).2 (app.execution D m execType ordStatus double).1.ids := by
  have hone := toNat_counter (n := app.idCounter) (by omega)
  have htwo := toNat_counter (n := app.idCounter + 1) (by omega)
  have hids : (app.execution D m execType ordStatus double).1.ids =
      [ascii "E" ++ decText (app.idCounter + 1).toNat, ascii "O" ++ decText (app.idCounter + 1 + 1).toNat] := by
    simp [Message.ids, AcceptorMockApp.execution, AcceptorMockApp.nextId, copyBasic]
  have hcounter : (app.execution D m execType ordStatus double).2.idCounter = app.idCounter + 1 + 1 := rfl
  rw [hids]
  refine ⟨?_, Nat.le_refl 2, ?_, ?_⟩
  · rw [hcounter, htwo, hone]
    rfl
  · have hne : ascii "E" ++ decText (app.idCounter + 1).toNat ≠ ascii "O" ++ decText (app.idCounter + 1 + 1).toNat := by
      intro heq
      cases congrArg List.head? heq
    simpa using hne
  · intro id hid
    rw [hcounter]
    simp only [List.mem_cons, List.not_mem_nil, or_false] at hid
    rcases hid with rfl | rfl
    · exact ⟨_, by omega, by omega, _, by simp, rfl⟩
    · exact ⟨_, by omega, by omega, _, by simp, rfl⟩

theorem gives_onNewOrderSingle (D : Doubles) {app : AcceptorMockApp} (h : app.idCounter.toNat + 2 < 2 ^ 64) (m : Message) :
    Gives app (app.onNewOrderSingle D m).2 (app.onNewOrderSingle D m).1.ids := by
  have hgives := gives_execution D h m 48 48 (AcceptorMockApp.orderQty D m)
  unfold AcceptorMockApp.onNewOrderSingle
  dsimp only
  split
  · rw [Message.ids_set _ (by decide), Message.ids_set _ (by decide)]
    exact hgives
  · exact hgives

theorem idCounter_judge (app : AcceptorMockApp) (s id : Bytes) : (app.judge s id).2.idCounter = app.idCounter := by
  unfold AcceptorMockApp.judge
  dsimp only
  split
  · rfl
  · split <;> rfl

theorem gives_answerRequest {app : AcceptorMockApp} (h : app.idCounter.toNat + 2 < 2 ^ 64) (s : Bytes) (m : Message) :
    Gives app (app.answerRequest s m).2 (app.answerRequest s m).1.ids := by
  have hcounter : (app.answerRequest s m).2.idCounter = app.idCounter + 1 := by
    simp [AcceptorMockApp.answerRequest, AcceptorMockApp.onApplicationMessageRequest, AcceptorMockApp.nextId, idCounter_judge]
  have hids : (app.answerRequest s m).1.ids = [ascii "AR" ++ decText (app.idCounter + 1).toNat] := by
    simp [Message.ids, AcceptorMockApp.answerRequest, AcceptorMockApp.onApplicationMessageRequest,
      AcceptorMockApp.nextId, idCounter_judge]
  have hone := toNat_counter (n := app.idCounter) (by omega)
  rw [hids]
  refine ⟨?_, Nat.le_succ 1, List.nodup_singleton _, ?_⟩
  · rw [hcounter, hone]
    rfl
  · intro id hid
    rw [List.mem_singleton] at hid
    rw [hcounter]
    exact ⟨_, by omega, Nat.le_refl _, _, by simp, hid⟩

/-- Every answer has new ids, and a message that is not answered leaves the counter alone. -/
theorem gives_fromApp (D : Doubles) {app : AcceptorMockApp} (h : app.idCounter.toNat + 2 < 2 ^ 64) (s : Bytes) (m : Message) :
    Gives app (app.fromApp D s m).2 ((app.fromApp D s m).1.toList.flatMap Message.ids) := by
  have hnone : Gives app app [] := ⟨rfl, Nat.zero_le 2, .nil, nofun⟩
  unfold AcceptorMockApp.fromApp
  cases m.msgType with
  | newOrderSingle =>
    simp only [Option.toList_some, List.flatMap_singleton]
    exact gives_onNewOrderSingle D h m
  | orderCancelRequest =>
    simp only [Option.toList_some, List.flatMap_singleton]
    exact gives_execution D h m 52 52 (D.ofQuantity 0)
  | orderCancelReplaceRequest =>
    simp only [Option.toList_some, List.flatMap_singleton]
    exact gives_execution D h m 53 48 (AcceptorMockApp.orderQty D m)
  | tradeCaptureReport =>
    have hids : (app.onTradeCaptureReport m).1.ids = [] := by simp [Message.ids, AcceptorMockApp.onTradeCaptureReport]
    simp only [Option.toList_some, List.flatMap_singleton, hids]
    exact hnone
  | applicationMessageRequest =>
    simp only [Option.toList_some, List.flatMap_singleton]
    exact gives_answerRequest h s m
  | executionReport | tradeCaptureReportAck | applicationMessageRequestAck => exact hnone

end BistColo.Fix
