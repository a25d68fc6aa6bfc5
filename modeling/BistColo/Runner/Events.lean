import BistColo.Ouch.Session
import BistColo.Ouch.Layouts
import BistColo.Runner.Scenario
/-!
# The events of the scenario runner

The matcher of `runner/replay.hpp`: an event is a message of the gateway, a
field of it is the text that a scenario can compare with, and an expectation
names a message and the texts of some of its fields.
-/

open StreamKit

namespace BistColo.Runner

open Ouch

/-! ## Events -/

inductive SessionEvent
  | accepted (m : OrderAccepted)
  | rejected (m : OrderRejected)
  | replaced (m : OrderReplaced)
  | canceled (m : OrderCanceled)
  | executed (m : OrderExecuted)
  | massQuoteAck (m : MassQuoteAck)
  | massQuoteRejection (m : MassQuoteRejection)
deriving DecidableEq

namespace SessionEvent

/-- The event that the apps push for a message of the session. -/
def ofMessage (m : ServerMsg) (bytes : Bytes) : SessionEvent :=
  match m with
  | .orderAccepted => accepted (OrderAccepted.read bytes)
  | .orderRejected => rejected (OrderRejected.read bytes)
  | .orderReplaced => replaced (OrderReplaced.read bytes)
  | .orderCanceled => canceled (OrderCanceled.read bytes)
  | .orderExecuted => executed (OrderExecuted.read bytes)
  | .massQuoteAck => massQuoteAck (MassQuoteAck.read bytes)
  | .massQuoteRejection => massQuoteRejection (MassQuoteRejection.read bytes)

end SessionEvent

/-! ## Fields -/

def trimFixedAlpha {n : Nat} (buf : Field n) : Bytes := buf.bytes.rdropWhile fun b => b = 32 ∨ b = 0

def sideField (side : UInt8) : Bytes := [side]

/-- `std::to_string` -/
def toString (n : Int) : Bytes := if n < 0 then 45 :: decText n.natAbs else decText n.natAbs

def cancelReasonName (v : UInt8) : String :=
  match v.toNat with
  | 1 => "canceled_by_user"
  | 3 => "trade"
  | 4 => "inactivate"
  | 5 => "replaced_by_user"
  | 6 => "new"
  | 8 => "converted_by_system"
  | 9 => "canceled_by_system"
  | 10 => "cod_inactivate"
  | 11 => "market_halt"
  | _ => "unknown"

def eventName : SessionEvent → String
  | .accepted _ => "order_accepted"
  | .rejected _ => "order_rejected"
  | .replaced _ => "order_replaced"
  | .canceled _ => "order_canceled"
  | .executed _ => "order_executed"
  | .massQuoteAck _ => "mass_quote_ack"
  | .massQuoteRejection _ => "mass_quote_rejection"

def acceptedField (m : OrderAccepted) (key : String) : Option Bytes :=
  match key with
  | "token" => some (trimFixedAlpha m.orderToken)
  | "order_book_id" => some (toString m.orderBookId.toNat)
  | "side" => some (sideField m.side)
  | "order_id" => some (toString m.orderId.toNat)
  | "quantity" | "leaves_quantity" => some (toString m.quantity.toNat)
  | "price" => some (toString m.price.toInt)
  | "time_in_force" => some (toString m.timeInForce.toNat)
  | "open_close" => some (toString m.openClose.toNat)
  | "order_state" => some (toString m.orderState.toNat)
  | "pre_trade_quantity" => some (toString m.preTradeQuantity.toNat)
  | "display_quantity" => some (toString m.displayQuantity.toNat)
  | "client_category" => some (toString m.clientCategory.toNat)
  | "off_hours" => some (toString m.offHours.toNat)
  | "smp_level" => some (toString m.smpLevel.toNat)
  | "smp_method" => some (toString m.smpMethod.toNat)
  | "smp_id" => some (trimFixedAlpha m.smpId)
  | _ => none

def rejectedField (m : OrderRejected) (key : String) : Option Bytes :=
  match key with
  | "token" => some (trimFixedAlpha m.orderToken)
  | "reject_code" => some (toString m.rejectCode.toInt)
  | _ => none

def replacedField (m : OrderReplaced) (key : String) : Option Bytes :=
  match key with
  | "token" | "replacement_token" | "replacement_order_token" => some (trimFixedAlpha m.replacementOrderToken)
  | "previous_token" | "previous_order_token" => some (trimFixedAlpha m.previousOrderToken)
  | "order_book_id" => some (toString m.orderBookId.toNat)
  | "side" => some (sideField m.side)
  | "order_id" => some (toString m.orderId.toNat)
  | "quantity" | "leaves_quantity" => some (toString m.quantity.toNat)
  | "price" => some (toString m.price.toInt)
  | "time_in_force" => some (toString m.timeInForce.toNat)
  | "open_close" => some (toString m.openClose.toNat)
  | "order_state" => some (toString m.orderState.toNat)
  | "pre_trade_quantity" => some (toString m.preTradeQuantity.toNat)
  | "display_quantity" => some (toString m.displayQuantity.toNat)
  | "client_category" => some (toString m.clientCategory.toNat)
  | _ => none

def canceledField (m : OrderCanceled) (key : String) : Option Bytes :=
  match key with
  | "token" => some (trimFixedAlpha m.orderToken)
  | "order_book_id" => some (toString m.orderBookId.toNat)
  | "side" => some (sideField m.side)
  | "order_id" => some (toString m.orderId.toNat)
  | "reason" => some (toString m.reason.toNat)
  | "cancel_reason_name" => some (ascii (cancelReasonName m.reason))
  | _ => none

def executedField (m : OrderExecuted) (key : String) : Option Bytes :=
  match key with
  | "token" => some (trimFixedAlpha m.orderToken)
  | "order_book_id" => some (toString m.orderBookId.toNat)
  | "traded_quantity" | "quantity" => some (toString m.tradedQuantity.toNat)
  | "trade_price" | "price" => some (toString m.tradePrice.toInt)
  | "client_category" => some (toString m.clientCategory.toNat)
  | _ => none

def massQuoteAckField (m : MassQuoteAck) (key : String) : Option Bytes :=
  match key with
  | "token" => some (trimFixedAlpha m.orderToken)
  | "order_book_id" => some (toString m.orderBookId.toNat)
  | "quantity" | "leaves_quantity" => some (toString m.quantity.toNat)
  | "traded_quantity" => some (toString m.tradedQuantity.toNat)
  | "price" => some (toString m.price.toInt)
  | "side" => some (sideField m.side)
  | "quote_status" => some (toString m.quoteStatus.toNat)
  | _ => none

def massQuoteRejectionField (m : MassQuoteRejection) (key : String) : Option Bytes :=
  match key with
  | "token" => some (trimFixedAlpha m.orderToken)
  | "order_book_id" => some (toString m.orderBookId.toNat)
  | "reject_code" => some (toString m.rejectCode.toInt)
  | _ => none

/-- `ouch_event_field` -/
def eventField (ev : SessionEvent) (key : String) : Option Bytes :=
  match ev with
  | .accepted m => acceptedField m key
  | .rejected m => rejectedField m key
  | .replaced m => replacedField m key
  | .canceled m => canceledField m key
  | .executed m => executedField m key
  | .massQuoteAck m => massQuoteAckField m key
  | .massQuoteRejection m => massQuoteRejectionField m key

/-! ## Matching -/

/-- The fields in the order of the map; the first that is not as expected is the detail. -/
def expectedFieldsMatch (lookup : String → Option Bytes) : List (String × Bytes) → Except String Unit
  | [] => .ok ()
  | (key, expected) :: rest =>
    match lookup key with
    | none => .error ("event has no expected field '" ++ key ++ "'")
    | some actual =>
      if actual ≠ expected then
        .error ("field mismatch for '" ++ key ++ "': expected '" ++ text expected ++ "', got '" ++ text actual ++ "'")
      else expectedFieldsMatch lookup rest

/-- `ouch_event_matches` -/
def eventMatches (exp : Expect) (ev : SessionEvent) : Except String Unit :=
  if eventName ev ≠ exp.msg ∧ exp.msg ≠ "any" then .error ("expected " ++ exp.msg ++ ", got " ++ eventName ev)
  else expectedFieldsMatch (eventField ev) exp.fields

theorem expectedFieldsMatch_ok {lookup : String → Option Bytes} {fields : List (String × Bytes)} :
    expectedFieldsMatch lookup fields = .ok () ↔ ∀ f ∈ fields, lookup f.1 = some f.2 := by
  induction fields with
  | nil => simp [expectedFieldsMatch]
  | cons f fields ih =>
    obtain ⟨key, expected⟩ := f
    rw [expectedFieldsMatch, List.forall_mem_cons]
    cases hkey : lookup key with
    | none => simp
    | some actual =>
      by_cases heq : actual = expected
      · simp [heq, ih]
      · simp [heq]

end BistColo.Runner
