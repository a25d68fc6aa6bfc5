import BistColo.Core
/-!
# The local order book

`domain/order_book.hpp`: the map from tokens to the state of the order entered
under them, written by the client and by the gateway's messages. Every write
but `insert` goes through the pointer that `find_mut` returns, if there is one
(`find_modify`).
-/

namespace BistColo.Domain

inductive OrderStatus
  | pending | onBook | replacing | canceling | notOnBook | rejected
deriving DecidableEq

structure OrderState where
  symbol : Bytes
  side : Side := .buy
  originalQty : Int64 := 0
  leaves : Int64 := 0
  executed : Int64 := 0
  price : Int32 := 0
  tif : TimeInForce := .day
  orderId : UInt64 := 0
  status : OrderStatus := .pending
deriving DecidableEq

structure OrderBook where
  find : Bytes → Option OrderState := fun _ => none

namespace OrderBook

def put (b : OrderBook) (token : Bytes) (state : OrderState) : OrderBook :=
  { find := fun t => if t = token then some state else b.find t }

def insert (b : OrderBook) (token : Bytes) (state : OrderState) : OrderBook :=
  b.put token { state with leaves := state.originalQty }

/-- `find_mut`, and the status written through the pointer if there is one. -/
def setStatus (b : OrderBook) (token : Bytes) (status : OrderStatus) : OrderBook :=
  match b.find token with
  | none => b
  | some s => b.put token { s with status := status }

/-- What a write through the pointer of `find_mut` does. -/
def modify (b : OrderBook) (token : Bytes) (f : OrderState → OrderState) : OrderBook :=
  match b.find token with
  | none => b
  | some s => b.put token (f s)

def onAccepted (b : OrderBook) (token : Bytes) (id : UInt64) (openQty : Int64) : OrderBook :=
  b.modify token fun s => { s with orderId := id, leaves := openQty, status := .onBook }

/-- `std::max<Quantity>(0, leaves - traded)` -/
def leavesAfter (leaves traded : Int64) : Int64 := if 0 < leaves - traded then leaves - traded else 0

def onExecuted (b : OrderBook) (token : Bytes) (traded : Int64) : OrderBook :=
  b.modify token fun s =>
    { s with
      executed := s.executed + traded
      leaves := leavesAfter s.leaves traded
      status := if leavesAfter s.leaves traded = 0 then .notOnBook else s.status }

def onCanceled (b : OrderBook) (token : Bytes) : OrderBook :=
  b.modify token fun s => { s with leaves := 0, status := .notOnBook }

/-! ## Reading after a write -/

theorem find_put (b : OrderBook) (token t : Bytes) (s : OrderState) :
    (b.put token s).find t = if t = token then some s else b.find t := rfl

theorem find_insert (b : OrderBook) (token t : Bytes) (s : OrderState) :
    (b.insert token s).find t = if t = token then some { s with leaves := s.originalQty } else b.find t := rfl

theorem find_modify (b : OrderBook) (token t : Bytes) (f : OrderState → OrderState) :
    (b.modify token f).find t = if t = token then (b.find t).map f else b.find t := by
  unfold modify
  split
  · rename_i hnone
    split
    · rename_i heq
      rw [heq, hnone]
      rfl
    · rfl
  · rename_i s hsome
    rw [find_put]
    split
    · rename_i heq
      rw [heq, hsome]
      rfl
    · rfl

theorem setStatus_eq (b : OrderBook) (token : Bytes) (status : OrderStatus) :
    b.setStatus token status = b.modify token fun s => { s with status := status } := by
  unfold setStatus modify
  split <;> rfl

theorem find_setStatus (b : OrderBook) (token t : Bytes) (status : OrderStatus) :
    (b.setStatus token status).find t =
      if t = token then (b.find t).map fun s => { s with status := status } else b.find t := by
  rw [setStatus_eq, find_modify]

end OrderBook

end BistColo.Domain
