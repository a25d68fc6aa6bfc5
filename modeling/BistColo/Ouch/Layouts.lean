import BistColo.Ouch.Messages
import BistColo.StreamKit.Format
/-!
# Reading messages back

`ouch/messages.hpp` seen from the reader: a packed struct over a buffer, each
field at its offset. Every message is a `Format`: reading gives back what was
written, and every buffer of the struct's size is the encoding of one message.
-/

open StreamKit

namespace BistColo.Ouch

/-! ## The offsets of the fields -/

def EnterOrder.read (mem : Bytes) : EnterOrder where
  messageType := u8At mem 0
  orderToken := fieldAt mem 1 14
  orderBookId := u32At mem 15
  side := u8At mem 19
  quantity := u64At mem 20
  price := i32At mem 28
  timeInForce := u8At mem 32
  openClose := u8At mem 33
  clientAccount := fieldAt mem 34 16
  customerInfo := fieldAt mem 50 15
  exchangeInfo := fieldAt mem 65 32
  displayQuantity := u64At mem 97
  clientCategory := u8At mem 105
  offHours := u8At mem 106
  smpLevel := u8At mem 107
  smpMethod := u8At mem 108
  smpId := fieldAt mem 109 3
  reserved := fieldAt mem 112 2

def ReplaceOrder.read (mem : Bytes) : ReplaceOrder where
  messageType := u8At mem 0
  existingOrderToken := fieldAt mem 1 14
  replacementOrderToken := fieldAt mem 15 14
  quantity := u64At mem 29
  price := i32At mem 37
  openClose := u8At mem 41
  clientAccount := fieldAt mem 42 16
  customerInfo := fieldAt mem 58 15
  exchangeInfo := fieldAt mem 73 32
  displayQuantity := u64At mem 105
  clientCategory := u8At mem 113
  reserved := fieldAt mem 114 8

def CancelOrder.read (mem : Bytes) : CancelOrder where
  messageType := u8At mem 0
  orderToken := fieldAt mem 1 14

def CancelByOrderId.read (mem : Bytes) : CancelByOrderId where
  messageType := u8At mem 0
  orderBookId := u32At mem 1
  side := u8At mem 5
  orderId := u64At mem 6

def MassQuoteHeader.read (mem : Bytes) : MassQuoteHeader where
  messageType := u8At mem 0
  orderToken := fieldAt mem 1 14
  clientCategory := u8At mem 15
  clientAccount := fieldAt mem 16 16
  exchangeInfo := fieldAt mem 32 16
  noQuoteEntries := u16At mem 48

def QuoteEntry.read (mem : Bytes) : QuoteEntry where
  orderBookId := u32At mem 0
  bidPrice := i32At mem 4
  offerPrice := i32At mem 8
  bidSize := u64At mem 12
  offerSize := u64At mem 20

def OrderAccepted.read (mem : Bytes) : OrderAccepted where
  messageType := u8At mem 0
  timestampNs := u64At mem 1
  orderToken := fieldAt mem 9 14
  orderBookId := u32At mem 23
  side := u8At mem 27
  orderId := u64At mem 28
  quantity := u64At mem 36
  price := i32At mem 44
  timeInForce := u8At mem 48
  openClose := u8At mem 49
  clientAccount := fieldAt mem 50 16
  orderState := u8At mem 66
  customerInfo := fieldAt mem 67 15
  exchangeInfo := fieldAt mem 82 32
  preTradeQuantity := u64At mem 114
  displayQuantity := u64At mem 122
  clientCategory := u8At mem 130
  offHours := u8At mem 131
  smpLevel := u8At mem 132
  smpMethod := u8At mem 133
  smpId := fieldAt mem 134 3

def OrderRejected.read (mem : Bytes) : OrderRejected where
  messageType := u8At mem 0
  timestampNs := u64At mem 1
  orderToken := fieldAt mem 9 14
  rejectCode := i32At mem 23

def OrderReplaced.read (mem : Bytes) : OrderReplaced where
  messageType := u8At mem 0
  timestampNs := u64At mem 1
  replacementOrderToken := fieldAt mem 9 14
  previousOrderToken := fieldAt mem 23 14
  orderBookId := u32At mem 37
  side := u8At mem 41
  orderId := u64At mem 42
  quantity := u64At mem 50
  price := i32At mem 58
  timeInForce := u8At mem 62
  openClose := u8At mem 63
  clientAccount := fieldAt mem 64 16
  orderState := u8At mem 80
  customerInfo := fieldAt mem 81 15
  exchangeInfo := fieldAt mem 96 32
  preTradeQuantity := u64At mem 128
  displayQuantity := u64At mem 136
  clientCategory := u8At mem 144

def OrderCanceled.read (mem : Bytes) : OrderCanceled where
  messageType := u8At mem 0
  timestampNs := u64At mem 1
  orderToken := fieldAt mem 9 14
  orderBookId := u32At mem 23
  side := u8At mem 27
  orderId := u64At mem 28
  reason := u8At mem 36

def OrderExecuted.read (mem : Bytes) : OrderExecuted where
  messageType := u8At mem 0
  timestampNs := u64At mem 1
  orderToken := fieldAt mem 9 14
  orderBookId := u32At mem 23
  tradedQuantity := u64At mem 27
  tradePrice := i32At mem 35
  matchId := fieldAt mem 39 12
  clientCategory := u8At mem 51
  reserved := fieldAt mem 52 16

def MassQuoteAck.read (mem : Bytes) : MassQuoteAck where
  messageType := u8At mem 0
  timestampNs := u64At mem 1
  orderToken := fieldAt mem 9 14
  orderBookId := u32At mem 23
  quantity := u64At mem 27
  tradedQuantity := u64At mem 35
  price := i32At mem 43
  side := u8At mem 47
  quoteStatus := u32At mem 48

def MassQuoteRejection.read (mem : Bytes) : MassQuoteRejection where
  messageType := u8At mem 0
  timestampNs := u64At mem 1
  orderToken := fieldAt mem 9 14
  orderBookId := u32At mem 23
  rejectCode := i32At mem 27

/-! ## Formats -/

def EnterOrder.format : Format EnterOrder where
  width := 114
  put := EnterOrder.bytes
  get := EnterOrder.read
  length_put := EnterOrder.length_bytes
  get_put m rest := by
    unfold EnterOrder.read EnterOrder.bytes
    simp [u8At, u32At, u64At, i32At, fieldAt]
  put_get bs h := by
    unfold EnterOrder.read EnterOrder.bytes
    simp [cons_u8At, fieldAt, peek_adjacent, peek_all h]

def ReplaceOrder.format : Format ReplaceOrder where
  width := 122
  put := ReplaceOrder.bytes
  get := ReplaceOrder.read
  length_put := ReplaceOrder.length_bytes
  get_put m rest := by
    unfold ReplaceOrder.read ReplaceOrder.bytes
    simp [u8At, u64At, u32At, i32At, fieldAt]
  put_get bs h := by
    unfold ReplaceOrder.read ReplaceOrder.bytes
    simp [cons_u8At, fieldAt, peek_adjacent, peek_all h]

def CancelOrder.format : Format CancelOrder where
  width := 15
  put := CancelOrder.bytes
  get := CancelOrder.read
  length_put := CancelOrder.length_bytes
  get_put m rest := by
    unfold CancelOrder.read CancelOrder.bytes
    simp [u8At, fieldAt]
  put_get bs h := by
    unfold CancelOrder.read CancelOrder.bytes
    simp [cons_u8At, fieldAt, peek_adjacent, peek_all h]

def CancelByOrderId.format : Format CancelByOrderId where
  width := 14
  put := CancelByOrderId.bytes
  get := CancelByOrderId.read
  length_put := CancelByOrderId.length_bytes
  get_put m rest := by
    unfold CancelByOrderId.read CancelByOrderId.bytes
    simp [u8At, u32At, u64At]
  put_get bs h := by
    unfold CancelByOrderId.read CancelByOrderId.bytes
    simp [cons_u8At, peek_adjacent, peek_all h]

def MassQuoteHeader.format : Format MassQuoteHeader where
  width := 50
  put := MassQuoteHeader.bytes
  get := MassQuoteHeader.read
  length_put := MassQuoteHeader.length_bytes
  get_put m rest := by
    unfold MassQuoteHeader.read MassQuoteHeader.bytes
    simp [u8At, u16At, fieldAt]
  put_get bs h := by
    unfold MassQuoteHeader.read MassQuoteHeader.bytes
    simp [cons_u8At, fieldAt, peek_adjacent, peek_all h]

def QuoteEntry.format : Format QuoteEntry where
  width := 28
  put := QuoteEntry.bytes
  get := QuoteEntry.read
  length_put := QuoteEntry.length_bytes
  get_put m rest := by
    unfold QuoteEntry.read QuoteEntry.bytes
    simp [u32At, u64At, i32At]
  put_get bs h := by
    unfold QuoteEntry.read QuoteEntry.bytes
    simp [peek_adjacent, peek_all h]

def OrderAccepted.format : Format OrderAccepted where
  width := 137
  put := OrderAccepted.bytes
  get := OrderAccepted.read
  length_put := OrderAccepted.length_bytes
  get_put m rest := by
    unfold OrderAccepted.read OrderAccepted.bytes
    simp [u8At, u32At, u64At, i32At, fieldAt]
  put_get bs h := by
    unfold OrderAccepted.read OrderAccepted.bytes
    simp [cons_u8At, fieldAt, peek_adjacent, peek_all h]

def OrderRejected.format : Format OrderRejected where
  width := 27
  put := OrderRejected.bytes
  get := OrderRejected.read
  length_put := OrderRejected.length_bytes
  get_put m rest := by
    unfold OrderRejected.read OrderRejected.bytes
    simp [u8At, u64At, u32At, i32At, fieldAt]
  put_get bs h := by
    unfold OrderRejected.read OrderRejected.bytes
    simp [cons_u8At, fieldAt, peek_adjacent, peek_all h]

def OrderReplaced.format : Format OrderReplaced where
  width := 145
  put := OrderReplaced.bytes
  get := OrderReplaced.read
  length_put := OrderReplaced.length_bytes
  get_put m rest := by
    unfold OrderReplaced.read OrderReplaced.bytes
    simp [u8At, u32At, u64At, i32At, fieldAt]
  put_get bs h := by
    unfold OrderReplaced.read OrderReplaced.bytes
    simp [cons_u8At, fieldAt, peek_adjacent, peek_all h]

def OrderCanceled.format : Format OrderCanceled where
  width := 37
  put := OrderCanceled.bytes
  get := OrderCanceled.read
  length_put := OrderCanceled.length_bytes
  get_put m rest := by
    unfold OrderCanceled.read OrderCanceled.bytes
    simp [u8At, u32At, u64At, fieldAt]
  put_get bs h := by
    unfold OrderCanceled.read OrderCanceled.bytes
    simp [cons_u8At, fieldAt, peek_adjacent, peek_all h]

def OrderExecuted.format : Format OrderExecuted where
  width := 68
  put := OrderExecuted.bytes
  get := OrderExecuted.read
  length_put := OrderExecuted.length_bytes
  get_put m rest := by
    unfold OrderExecuted.read OrderExecuted.bytes
    simp [u8At, u32At, u64At, i32At, fieldAt]
  put_get bs h := by
    unfold OrderExecuted.read OrderExecuted.bytes
    simp [cons_u8At, fieldAt, peek_adjacent, peek_all h]

def MassQuoteAck.format : Format MassQuoteAck where
  width := 52
  put := MassQuoteAck.bytes
  get := MassQuoteAck.read
  length_put := MassQuoteAck.length_bytes
  get_put m rest := by
    unfold MassQuoteAck.read MassQuoteAck.bytes
    simp [u8At, u32At, u64At, i32At, fieldAt]
  put_get bs h := by
    unfold MassQuoteAck.read MassQuoteAck.bytes
    simp [cons_u8At, fieldAt, peek_adjacent, peek_all h]

def MassQuoteRejection.format : Format MassQuoteRejection where
  width := 31
  put := MassQuoteRejection.bytes
  get := MassQuoteRejection.read
  length_put := MassQuoteRejection.length_bytes
  get_put m rest := by
    unfold MassQuoteRejection.read MassQuoteRejection.bytes
    simp [u8At, u32At, u64At, i32At, fieldAt]
  put_get bs h := by
    unfold MassQuoteRejection.read MassQuoteRejection.bytes
    simp [cons_u8At, fieldAt, peek_adjacent, peek_all h]

/-- A layout whose first field is a byte starts with it. -/
theorem head_put {α : Type*} (f : Format α) (first : α → UInt8) (hread : ∀ mem, first (f.get mem) = u8At mem 0)
    (hwidth : 0 < f.width) (m : α) : (f.put m).head? = some (first m) := by
  obtain ⟨hlen, hget⟩ := f.roundTrips.1 m
  have hfirst := hread (f.put m)
  rw [hget] at hfirst
  cases hput : f.put m with
  | nil =>
    rw [hput] at hlen
    exact absurd hlen hwidth.ne
  | cons b bs =>
    rw [hfirst, hput]
    rfl

end BistColo.Ouch
