import BistColo.Mock.Serving
import BistColo.StreamKit.Runs
/-!
# The life of an order at the gateway

`inactivate_all_resting` of `mock/ouch_gateway.cpp` cancels what `resting_`
holds. Beside the gateway runs a ledger, which reads off the requests and the
answers which day orders live. The gateway cancels every order at most once and
inactivates exactly the living ones as long as no request is careless of
`resting_`: `life_cycle_iff` says which are, and `canceled_by_id_twice` is an
order that is canceled by id and inactivated as well.
-/

open StreamKit

namespace BistColo.Mock

open Soup Ouch

namespace Gateway

/-! ## Inactivation -/

def emitCanceled (g : Gateway) (token : OrderToken) (order : RestingOrder) (reason : UInt8) : Reply × Gateway :=
  let (now, g) := g.timestamp
  (.canceled ⟨MsgType.orderCanceled, now, token, order.orderBookId, order.side, order.orderId, reason⟩, g)

/-- The loop over the snapshot. -/
def emitInactivated (g : Gateway) : List (OrderToken × RestingOrder) → List Reply × Gateway
  | [] => ([], g)
  | (token, order) :: snapshot =>
    let (reply, g) := g.emitCanceled token order 4
    let rest := g.emitInactivated snapshot
    (reply :: rest.1, rest.2)

/-- `snapshot` is what the iteration over the unordered map `resting_` meets. -/
structure Enumerates (resting : OrderToken → Option RestingOrder) (snapshot : List (OrderToken × RestingOrder)) :
    Prop where
  nodup : snapshot.Nodup
  mem : ∀ token order, (token, order) ∈ snapshot ↔ resting token = some order

structure Inactivated where
  count : Nat
  replies : List Reply
  gateway : Gateway

/-- `clientFd` is negative while no client is connected. -/
def inactivateAllResting (g : Gateway) (clientFd : Int32) (snapshot : List (OrderToken × RestingOrder)) : Inactivated :=
  if clientFd < 0 then ⟨0, [], g⟩
  else
    let r := { g with resting := fun _ => none }.emitInactivated snapshot
    ⟨snapshot.length, r.1, r.2⟩

end Gateway

/-! ## Requests -/

/-- A request about single orders. -/
inductive OrderRequest
  | enter (m : EnterOrder)
  | cancel (m : CancelOrder)
  | cancelById (m : CancelByOrderId)
  | replace (m : ReplaceOrder)

def Gateway.handle (g : Gateway) : OrderRequest → List Reply × Gateway
  | .enter m => g.enterOrder m
  | .cancel m => g.cancelOrder m
  | .cancelById m => g.cancelByOrderId m
  | .replace m => g.replaceOrder m

namespace OrderRequest

def bytes : OrderRequest → Bytes
  | enter m => m.bytes
  | cancel m => m.bytes
  | cancelById m => m.bytes
  | replace m => m.bytes

/-- The message type is that of the request. -/
def WellTyped : OrderRequest → Prop
  | enter m => m.messageType = MsgType.enterOrder
  | cancel m => m.messageType = MsgType.cancelOrder
  | cancelById m => m.messageType = MsgType.cancelByOrderId
  | replace m => m.messageType = MsgType.replaceOrder

end OrderRequest

/-- The payload of a request is handled as the request. -/
theorem Gateway.handlePayload_orderRequest (g : Gateway) {r : OrderRequest} (h : r.WellTyped) :
    g.handlePayload r.bytes = g.handle r := by
  cases r with
  | enter m => exact handlePayload_enterOrder g h
  | cancel m =>
    have hread : CancelOrder.read m.bytes = m := (CancelOrder.format.roundTrips.1 m).2
    have hhead : m.bytes.head? = some MsgType.cancelOrder := by rw [← h]; rfl
    unfold handlePayload OrderRequest.bytes
    rw [hhead]
    dsimp only
    rw [if_neg (by decide), if_pos rfl, if_neg (not_not_intro m.length_bytes), hread]
    rfl
  | cancelById m =>
    have hread : CancelByOrderId.read m.bytes = m := (CancelByOrderId.format.roundTrips.1 m).2
    have hhead : m.bytes.head? = some MsgType.cancelByOrderId := by rw [← h]; rfl
    unfold handlePayload OrderRequest.bytes
    rw [hhead]
    dsimp only
    rw [if_neg (by decide), if_neg (by decide), if_pos rfl, if_neg (not_not_intro m.length_bytes), hread]
    rfl
  | replace m =>
    have hread : ReplaceOrder.read m.bytes = m := (ReplaceOrder.format.roundTrips.1 m).2
    have hhead : m.bytes.head? = some MsgType.replaceOrder := by rw [← h]; rfl
    unfold handlePayload OrderRequest.bytes
    rw [hhead]
    dsimp only
    rw [if_neg (by decide), if_neg (by decide), if_neg (by decide), if_pos rfl, if_neg (not_not_intro m.length_bytes),
      hread]
    rfl

/-! ## The ledger -/

/-- Day orders that live, with their tokens, and order ids: those assigned,
those replaced, and those an OrderCanceled named after they were assigned. -/
structure DayLedger where
  live : List (OrderToken × RestingOrder) := []
  assigned : List UInt64 := []
  replaced : List UInt64 := []
  canceled : List UInt64 := []

namespace DayLedger

/-- A cancel ends the orders it names. -/
def requested (l : DayLedger) : OrderRequest → DayLedger
  | .cancel m => { l with live := l.live.filter fun p => p.1 ≠ m.orderToken }
  | .cancelById m => { l with live := l.live.filter fun p => p.2.orderId ≠ m.orderId }
  | .enter _ | .replace _ => l

def accept (l : DayLedger) (m : OrderAccepted) : DayLedger :=
  { l with
    assigned := l.assigned ++ [m.orderId]
    live := if m.timeInForce = 0 then l.live ++ [(m.orderToken, ⟨m.orderBookId, m.side, m.orderId⟩)] else l.live }

/-- The replacement of a living order lives on in its book and on its side. -/
def replace (l : DayLedger) (m : OrderReplaced) : DayLedger :=
  match l.live.find? fun p => p.1 = m.previousOrderToken with
  | none => { l with assigned := l.assigned ++ [m.orderId] }
  | some (_, o) =>
    { l with
      assigned := l.assigned ++ [m.orderId]
      replaced := l.replaced ++ [o.orderId]
      live := (l.live.filter fun p => p.1 ≠ m.previousOrderToken) ++
        [(m.replacementOrderToken, ⟨o.orderBookId, o.side, m.orderId⟩)] }

def cancel (l : DayLedger) (orderId : UInt64) : DayLedger :=
  if orderId ∈ l.assigned then { l with canceled := l.canceled ++ [orderId] } else l

@[simp] theorem cancel_live (l : DayLedger) (orderId : UInt64) : (l.cancel orderId).live = l.live := by
  unfold cancel
  split <;> rfl

def answered (l : DayLedger) : Reply → DayLedger
  | .accepted m => l.accept m
  | .replaced m => l.replace m
  | .canceled m => l.cancel m.orderId
  | .rejected _ | .massQuoteAck _ | .massQuoteRejection _ => l

/-- An inactivation ends every order. -/
def inactivated (l : DayLedger) : DayLedger := { l with live := [] }

end DayLedger

/-- The gateway and the ledger beside it. -/
structure TradingDay where
  gateway : Gateway
  ledger : DayLedger := {}

/-- What happens to the gateway, one after the other. -/
inductive DayEvent
  | request (r : OrderRequest)
  | inactivateAll (clientFd : Int32) (snapshot : List (OrderToken × RestingOrder))

namespace TradingDay

def step (d : TradingDay) : DayEvent → TradingDay
  | .request r =>
    let answer := d.gateway.handle r
    ⟨answer.2, answer.1.foldl DayLedger.answered (d.ledger.requested r)⟩
  | .inactivateAll clientFd snapshot =>
    let r := d.gateway.inactivateAllResting clientFd snapshot
    ⟨r.gateway, r.replies.foldl DayLedger.answered d.ledger.inactivated⟩

/-- The order an OrderCanceled names, and its reason. -/
def canceledOrder : Reply → Option (OrderToken × RestingOrder × UInt8)
  | .canceled m => some (m.orderToken, ⟨m.orderBookId, m.side, m.orderId⟩, m.reason)
  | _ => none

/-- What holds of a day so far. -/
structure Orderly (d : TradingDay) : Prop where
  /-- At most one OrderCanceled names an order id. -/
  once : d.ledger.canceled.Nodup
  /-- None names an order id that has been replaced. -/
  not_replaced : ∀ id ∈ d.ledger.replaced, id ∉ d.ledger.canceled
  /-- An inactivation now cancels exactly the living orders, with reason 4. -/
  inactivates : ∀ clientFd snapshot, 0 ≤ clientFd → Gateway.Enumerates d.gateway.resting snapshot →
    ((d.gateway.inactivateAllResting clientFd snapshot).replies.map canceledOrder).Perm
      (d.ledger.live.map fun p => some (p.1, p.2, 4))

/-- What the machine provides: the loop visits every entry of the map once, and
the order ids do not run out. -/
def Possible (d : TradingDay) : DayEvent → Prop
  | .request _ => d.gateway.orderIdSeq.toNat + 1 < 2 ^ 64
  | .inactivateAll clientFd snapshot => 0 ≤ clientFd → Gateway.Enumerates d.gateway.resting snapshot

/-- A request that `resting_` can follow. -/
def Careful (d : TradingDay) : DayEvent → Prop
  | .request (.enter m) => m.orderToken ∉ d.gateway.seenTokens → m.price ≤ 9000 → m.timeInForce = 0 →
      d.gateway.resting m.orderToken = none
  | .request (.cancel _) => True
  | .request (.cancelById m) => (∀ token order, d.gateway.resting token = some order → order.orderId ≠ m.orderId) ∧
      (m.orderId ∈ d.ledger.assigned → m.orderId ∉ d.ledger.canceled ∧ m.orderId ∉ d.ledger.replaced)
  | .request (.replace m) => d.gateway.resting m.existingOrderToken ≠ none ∧
      (m.replacementOrderToken = m.existingOrderToken ∨ d.gateway.resting m.replacementOrderToken = none)
  | .inactivateAll clientFd _ => 0 ≤ clientFd ∨ ∀ token, d.gateway.resting token = none

end TradingDay

/-! ## What a request does to the map -/

namespace Gateway

theorem enterOrder_cases (g : Gateway) (eo : EnterOrder) :
    ((eo.orderToken ∈ g.seenTokens ∨ 9000 < eo.price) ∧ (∃ m, (g.enterOrder eo).1 = [.rejected m]) ∧
      (g.enterOrder eo).2.resting = g.resting ∧ (g.enterOrder eo).2.orderIdSeq = g.orderIdSeq) ∨
    (eo.orderToken ∉ g.seenTokens ∧ eo.price ≤ 9000 ∧
      (∃ now, (g.enterOrder eo).1 = [.accepted (acceptedMessage eo g.orderIdSeq now)]) ∧
      (g.enterOrder eo).2.resting = (if eo.timeInForce = 0 then
        Function.update g.resting eo.orderToken (some ⟨eo.orderBookId, eo.side, g.orderIdSeq⟩) else g.resting) ∧
      (g.enterOrder eo).2.orderIdSeq = g.orderIdSeq + 1) := by
  unfold enterOrder
  split
  · rename_i hseen
    exact .inl ⟨.inl hseen, ⟨_, rfl⟩, rfl, rfl⟩
  · rename_i hnew
    dsimp only
    split
    · rename_i hprice
      exact .inl ⟨.inr hprice, ⟨_, rfl⟩, rfl, rfl⟩
    · rename_i hprice
      refine .inr ⟨hnew, Int32.not_lt.1 hprice, ⟨_, rfl⟩, ?_⟩
      split
      · exact ⟨rfl, rfl⟩
      · exact ⟨rfl, rfl⟩

/-- The order that a cancel or a replace finds under its token. -/
def found (g : Gateway) (token : OrderToken) : RestingOrder := (g.resting token).getD {}

theorem cancelOrder_spec (g : Gateway) (co : CancelOrder) :
    (∃ now, (g.cancelOrder co).1 = [.canceled ⟨MsgType.orderCanceled, now, co.orderToken,
      (g.found co.orderToken).orderBookId, (g.found co.orderToken).side, (g.found co.orderToken).orderId, 1⟩]) ∧
    (g.cancelOrder co).2.resting = Function.update g.resting co.orderToken none ∧
    (g.cancelOrder co).2.orderIdSeq = g.orderIdSeq := by
  unfold cancelOrder found
  dsimp only
  split
  · rename_i hnone
    have hnone : g.resting co.orderToken = none := hnone
    rw [hnone]
    exact ⟨⟨_, rfl⟩, (Function.update_eq_self_iff.2 hnone.symm).symm, rfl⟩
  · rename_i o hsome
    have hsome : g.resting co.orderToken = some o := hsome
    rw [hsome]
    exact ⟨⟨_, rfl⟩, rfl, rfl⟩

theorem cancelByOrderId_spec (g : Gateway) (cy : CancelByOrderId) :
    (∃ now, (g.cancelByOrderId cy).1 =
      [.canceled ⟨MsgType.orderCanceled, now, zeros 14, cy.orderBookId, cy.side, cy.orderId, 1⟩]) ∧
    (g.cancelByOrderId cy).2.resting = g.resting ∧ (g.cancelByOrderId cy).2.orderIdSeq = g.orderIdSeq :=
  ⟨⟨_, rfl⟩, rfl, rfl⟩

theorem replaceOrder_spec (g : Gateway) (ro : ReplaceOrder) :
    (∃ now, (g.replaceOrder ro).1 = [.replaced (replacedMessage ro g.orderIdSeq now
      (g.found ro.existingOrderToken).orderBookId (g.found ro.existingOrderToken).side)]) ∧
    (g.replaceOrder ro).2.resting = Function.update (Function.update g.resting ro.existingOrderToken none)
      ro.replacementOrderToken (some ⟨(g.found ro.existingOrderToken).orderBookId,
        (g.found ro.existingOrderToken).side, g.orderIdSeq⟩) ∧
    (g.replaceOrder ro).2.orderIdSeq = g.orderIdSeq + 1 :=
  ⟨⟨_, rfl⟩, rfl, rfl⟩

theorem emitInactivated_spec (g : Gateway) (snapshot : List (OrderToken × RestingOrder)) :
    (g.emitInactivated snapshot).1.map TradingDay.canceledOrder = snapshot.map (fun p => some (p.1, p.2, 4)) ∧
    (g.emitInactivated snapshot).2.resting = g.resting ∧
    (g.emitInactivated snapshot).2.orderIdSeq = g.orderIdSeq ∧
    (g.emitInactivated snapshot).2.seenTokens = g.seenTokens := by
  induction snapshot generalizing g with
  | nil => exact ⟨rfl, rfl, rfl, rfl⟩
  | cons p snapshot ih =>
    obtain ⟨hreplies, hresting, hseq, hseen⟩ := ih g.timestamp.2
    refine ⟨?_, hresting, hseq, hseen⟩
    rw [List.map_cons, ← hreplies]
    rfl

/-- A connected inactivation empties the map, with one answer for each entry. -/
theorem inactivateAllResting_spec (g : Gateway) {clientFd : Int32} (h : 0 ≤ clientFd)
    (snapshot : List (OrderToken × RestingOrder)) :
    (g.inactivateAllResting clientFd snapshot).replies.map TradingDay.canceledOrder =
      snapshot.map (fun p => some (p.1, p.2, 4)) ∧
    (g.inactivateAllResting clientFd snapshot).gateway.resting = (fun _ => none) ∧
    (g.inactivateAllResting clientFd snapshot).gateway.orderIdSeq = g.orderIdSeq := by
  obtain ⟨hreplies, hresting, hseq, -⟩ := emitInactivated_spec { g with resting := fun _ => none } snapshot
  rw [inactivateAllResting, if_neg (Int32.not_lt.2 h)]
  exact ⟨hreplies, hresting, hseq⟩

end Gateway

/-! ## The ledger and the map -/

/-- The map and the ledger agree, and the ids are in order; `next` is the next id. -/
structure Agrees (resting : OrderToken → Option RestingOrder) (next : UInt64) (l : DayLedger) : Prop where
  resting : ∀ token order, resting token = some order ↔ (token, order) ∈ l.live
  ids : (l.live.map fun p => p.2.orderId).Nodup
  live : ∀ p ∈ l.live, p.2.orderId ∈ l.assigned ∧ p.2.orderId ∉ l.canceled ∧ p.2.orderId ∉ l.replaced
  assigned : ∀ id ∈ l.assigned, 0 < id.toNat ∧ id.toNat < next.toNat
  replaced : ∀ id ∈ l.replaced, id ∈ l.assigned ∧ id ∉ l.canceled
  canceled : ∀ id ∈ l.canceled, id ∈ l.assigned
  once : l.canceled.Nodup
  started : 0 < next.toNat

namespace Agrees

variable {resting : OrderToken → Option RestingOrder} {next : UInt64} {l : DayLedger}

theorem zero_not_assigned (h : Agrees resting next l) : (0 : UInt64) ∉ l.assigned :=
  fun h0 => absurd (h.assigned 0 h0).1 (by decide)

theorem next_not_assigned (h : Agrees resting next l) : next ∉ l.assigned :=
  fun hn => absurd (h.assigned next hn).2 (lt_irrefl _)

theorem next_succ (hnext : next.toNat + 1 < 2 ^ 64) : (next + 1).toNat = next.toNat + 1 := by
  rw [UInt64.toNat_add]
  exact Nat.mod_eq_of_lt hnext

/-- An order that does not rest: only the id is assigned. -/
theorem assign (h : Agrees resting next l) (hnext : next.toNat + 1 < 2 ^ 64) :
    Agrees resting (next + 1) { l with assigned := l.assigned ++ [next] } := by
  have hsub : ∀ id, id ∈ l.assigned → id ∈ l.assigned ++ [next] := fun id hid => List.mem_append_left _ hid
  refine ⟨h.resting, h.ids, ?_, ?_, ?_, ?_, h.once, ?_⟩
  · intro p hp
    obtain ⟨ha, hrest⟩ := h.live p hp
    exact ⟨hsub _ ha, hrest⟩
  · intro id hid
    rw [next_succ hnext]
    rcases List.mem_append.1 hid with hid | hid
    · obtain ⟨hpos, hlt⟩ := h.assigned id hid
      exact ⟨hpos, by omega⟩
    · rw [List.mem_singleton.1 hid]
      exact ⟨h.started, Nat.lt_succ_self _⟩
  · intro id hid
    obtain ⟨ha, hc⟩ := h.replaced id hid
    exact ⟨hsub _ ha, hc⟩
  · intro id hid
    exact hsub _ (h.canceled id hid)
  · rw [next_succ hnext]
    exact Nat.succ_pos _

/-- An order of a token that is free starts to rest. -/
theorem admitOrder (h : Agrees resting next l) {token : OrderToken} {order : RestingOrder} (hfree : resting token = none)
    (hid : order.orderId ∈ l.assigned ∧ order.orderId ∉ l.canceled ∧ order.orderId ∉ l.replaced)
    (hnew : ∀ p ∈ l.live, p.2.orderId ≠ order.orderId) :
    Agrees (Function.update resting token (some order)) next { l with live := l.live ++ [(token, order)] } := by
  refine ⟨?_, ?_, ?_, h.assigned, h.replaced, h.canceled, h.once, h.started⟩
  · intro t o
    by_cases ht : t = token
    · subst ht
      have hno : ∀ o, (t, o) ∉ l.live := by
        intro o ho
        have hsome := (h.resting t o).2 ho
        rw [hfree] at hsome
        cases hsome
      rw [Function.update_self]
      simp [hno, eq_comm]
    · rw [Function.update_of_ne ht, h.resting t o]
      simp [ht]
  · rw [List.map_append, List.nodup_append]
    refine ⟨h.ids, List.nodup_singleton _, ?_⟩
    intro id hid id' hid'
    obtain ⟨p, hp, rfl⟩ := List.mem_map.1 hid
    rw [List.map_singleton, List.mem_singleton] at hid'
    rw [hid']
    exact hnew p hp
  · intro p hp
    rcases List.mem_append.1 hp with hp | hp
    · exact h.live p hp
    · rw [List.mem_singleton.1 hp]
      exact hid

/-- The order of a token stops to rest. -/
theorem dropToken (h : Agrees resting next l) (token : OrderToken) :
    Agrees (Function.update resting token none) next { l with live := l.live.filter fun p => p.1 ≠ token } := by
  refine ⟨?_, ?_, ?_, h.assigned, h.replaced, h.canceled, h.once, h.started⟩
  · intro t o
    by_cases ht : t = token
    · simp [ht]
    · rw [Function.update_of_ne ht, h.resting t o]
      simp [ht]
  · exact h.ids.sublist (List.filter_sublist.map _)
  · intro p hp
    exact h.live p (List.mem_filter.1 hp).1

/-- No other order has the id of one that rests. -/
theorem id_dropped (h : Agrees resting next l) {token : OrderToken} {order : RestingOrder}
    (hrest : resting token = some order) :
    ∀ p ∈ l.live.filter fun p => p.1 ≠ token, p.2.orderId ≠ order.orderId := by
  intro p hp hid
  obtain ⟨hlive, hne⟩ := List.mem_filter.1 hp
  have hsame : p = (token, order) := List.inj_on_of_nodup_map h.ids hlive ((h.resting token order).1 hrest) hid
  simp [hsame] at hne

/-- An OrderCanceled for an order that does not live. -/
theorem cancelId (h : Agrees resting next l) {id : UInt64} (hdead : ∀ p ∈ l.live, p.2.orderId ≠ id)
    (hid : id ∈ l.assigned → id ∉ l.canceled ∧ id ∉ l.replaced) : Agrees resting next (l.cancel id) := by
  unfold DayLedger.cancel
  split
  · rename_i hassigned
    obtain ⟨hnot, hrep⟩ := hid hassigned
    refine ⟨h.resting, h.ids, ?_, h.assigned, ?_, ?_, ?_, h.started⟩
    · intro p hp
      obtain ⟨ha, hc, hr⟩ := h.live p hp
      refine ⟨ha, ?_, hr⟩
      simp [hc, hdead p hp]
    · intro id' hid'
      obtain ⟨ha, hc⟩ := h.replaced id' hid'
      have hne : id' ≠ id := by
        rintro rfl
        exact hrep hid'
      exact ⟨ha, by simp [hc, hne]⟩
    · intro id' hid'
      rcases List.mem_append.1 hid' with hid' | hid'
      · exact h.canceled id' hid'
      · rw [List.mem_singleton.1 hid']
        exact hassigned
    · rw [List.nodup_append]
      refine ⟨h.once, List.nodup_singleton _, ?_⟩
      intro a ha b hb
      rw [List.mem_singleton.1 hb]
      rintro rfl
      exact hnot ha
  · exact h

/-- An order that lives no more counts as replaced. -/
theorem retire (h : Agrees resting next l) {id : UInt64} (hdead : ∀ p ∈ l.live, p.2.orderId ≠ id)
    (hassigned : id ∈ l.assigned) (hnot : id ∉ l.canceled) :
    Agrees resting next { l with replaced := l.replaced ++ [id] } := by
  refine ⟨h.resting, h.ids, ?_, h.assigned, ?_, h.canceled, h.once, h.started⟩
  · intro p hp
    obtain ⟨ha, hc, hr⟩ := h.live p hp
    refine ⟨ha, hc, ?_⟩
    simp [hr, hdead p hp]
  · intro id' hid'
    rcases List.mem_append.1 hid' with hid' | hid'
    · exact h.replaced id' hid'
    · rw [List.mem_singleton.1 hid']
      exact ⟨hassigned, hnot⟩

theorem find_live (h : Agrees resting next l) (token : OrderToken) :
    l.live.find? (fun p => p.1 = token) = (resting token).map fun order => (token, order) := by
  cases hrest : resting token with
  | none =>
    rw [Option.map_none, List.find?_eq_none]
    rintro ⟨t, o⟩ hmem ht
    have hsome := (h.resting t o).2 hmem
    have ht : t = token := of_decide_eq_true ht
    rw [ht, hrest] at hsome
    cases hsome
  | some order =>
    have hmem := (h.resting token order).1 hrest
    cases hfind : l.live.find? (fun p => p.1 = token) with
    | none => exact absurd (List.find?_eq_none.1 hfind _ hmem) (by simp)
    | some p =>
      obtain ⟨t, o⟩ := p
      have ht : t = token := by simpa using List.find?_some hfind
      have hsome := (h.resting t o).2 (List.mem_of_find?_eq_some hfind)
      rw [ht, hrest, Option.some.injEq] at hsome
      rw [ht, hsome, Option.map_some]

/-- The living orders are what an iteration over the map meets. -/
theorem enumerates (h : Agrees resting next l) : Gateway.Enumerates resting l.live :=
  ⟨h.ids.of_map, fun token order => (h.resting token order).symm⟩

/-- An inactivation, which ends every order, names each of them. -/
theorem inactivate {replies : List Reply} {snapshot : List (OrderToken × RestingOrder)}
    (h : Agrees (fun _ => none) next { l with live := [] })
    (hreplies : replies.map TradingDay.canceledOrder = snapshot.map fun p => some (p.1, p.2, 4))
    (hnodup : (snapshot.map fun p => p.2.orderId).Nodup)
    (hids : ∀ p ∈ snapshot, p.2.orderId ∉ l.canceled ∧ p.2.orderId ∉ l.replaced) :
    Agrees (fun _ => none) next (replies.foldl DayLedger.answered { l with live := [] }) := by
  induction snapshot generalizing replies l with
  | nil =>
    rw [List.map_nil, List.map_eq_nil_iff] at hreplies
    rw [hreplies]
    exact h
  | cons p snapshot ih =>
    cases replies with
    | nil => cases hreplies
    | cons r replies =>
      rw [List.map_cons, List.map_cons, List.cons.injEq] at hreplies
      obtain ⟨hr, hreplies⟩ := hreplies
      rw [List.map_cons, List.nodup_cons] at hnodup
      obtain ⟨hfirst, hnodup⟩ := hnodup
      -- the first answer is the OrderCanceled of the first entry
      have hanswer : DayLedger.answered { l with live := [] } r = DayLedger.cancel { l with live := [] } p.2.orderId := by
        cases r with
        | canceled m =>
          simp only [TradingDay.canceledOrder, Option.some.injEq, Prod.mk.injEq] at hr
          rw [DayLedger.answered, ← hr.2.1]
        | _ => cases hr
      have hp := hids p List.mem_cons_self
      have hcancel : Agrees _ next (DayLedger.cancel { l with live := [] } p.2.orderId) :=
        h.cancelId (fun q hq => absurd hq List.not_mem_nil) fun _ => hp
      rw [List.foldl_cons, hanswer]
      unfold DayLedger.cancel at hcancel ⊢
      by_cases hassigned : p.2.orderId ∈ l.assigned
      · rw [if_pos hassigned] at hcancel ⊢
        refine ih (l := { l with canceled := l.canceled ++ [p.2.orderId] }) hcancel hreplies hnodup ?_
        intro q hq
        obtain ⟨hc, hrep⟩ := hids q (List.mem_cons_of_mem p hq)
        have hne : q.2.orderId ≠ p.2.orderId := by
          intro heq
          exact hfirst (heq ▸ List.mem_map_of_mem hq)
        exact ⟨by simp [hc, hne], hrep⟩
      · rw [if_neg hassigned]
        exact ih h hreplies hnodup fun q hq => hids q (List.mem_cons_of_mem p hq)

/-- Nothing rests, and nothing lives. -/
theorem clear (h : Agrees resting next l) : Agrees (fun _ => none) next { l with live := [] } :=
  ⟨fun _ _ => by simp, List.nodup_nil, fun p hp => absurd hp List.not_mem_nil, h.assigned, h.replaced, h.canceled,
    h.once, h.started⟩

end Agrees

namespace TradingDay

/-- The map and the ledger of a day agree. -/
def InStep (d : TradingDay) : Prop := Agrees d.gateway.resting d.gateway.orderIdSeq d.ledger

/-! ## One event -/

theorem InStep.enter {d : TradingDay} (h : d.InStep) {m : EnterOrder} (hp : d.Possible (.request (.enter m)))
    (hc : d.Careful (.request (.enter m))) : (d.step (.request (.enter m))).InStep := by
  unfold InStep step Gateway.handle DayLedger.requested
  dsimp only
  rcases d.gateway.enterOrder_cases m with ⟨-, ⟨j, hj⟩, hrest, hseq⟩ | ⟨hnew, hprice, ⟨now, hacc⟩, hrest, hseq⟩
  · rw [hj, hrest, hseq]
    exact h
  · have hassign := h.assign hp
    rw [hacc, hrest, hseq, List.foldl_cons, List.foldl_nil, DayLedger.answered, DayLedger.accept]
    by_cases hday : m.timeInForce = 0
    · -- a day order rests under a token that was free
      have hwire : (Gateway.acceptedMessage m d.gateway.orderIdSeq now).timeInForce = 0 := hday
      rw [if_pos hday, if_pos hwire]
      refine hassign.admitOrder (hc hnew hprice hday) ?_ ?_
      · refine ⟨List.mem_append_right _ List.mem_cons_self, ?_, ?_⟩
        · exact fun hmem => h.next_not_assigned (h.canceled _ hmem)
        · exact fun hmem => h.next_not_assigned (h.replaced _ hmem).1
      · intro p hp' hid
        have hassigned := (h.live p hp').1
        have hid : p.2.orderId = d.gateway.orderIdSeq := hid
        rw [hid] at hassigned
        exact h.next_not_assigned hassigned
    · have hwire : (Gateway.acceptedMessage m d.gateway.orderIdSeq now).timeInForce ≠ 0 := hday
      rw [if_neg hday, if_neg hwire]
      exact hassign

theorem InStep.cancel {d : TradingDay} (h : d.InStep) (m : CancelOrder) : (d.step (.request (.cancel m))).InStep := by
  unfold InStep step Gateway.handle DayLedger.requested
  dsimp only
  obtain ⟨⟨now, hcanceled⟩, hrest, hseq⟩ := d.gateway.cancelOrder_spec m
  have hdrop := h.dropToken m.orderToken
  rw [hcanceled, hrest, hseq, List.foldl_cons, List.foldl_nil, DayLedger.answered]
  cases hfind : d.gateway.resting m.orderToken with
  | none =>
    -- an unknown token is answered with the order id 0
    have hzero : (d.gateway.found m.orderToken).orderId = 0 := by rw [Gateway.found, hfind]; rfl
    rw [hzero, DayLedger.cancel, if_neg h.zero_not_assigned]
    exact hdrop
  | some o =>
    have hfound : d.gateway.found m.orderToken = o := by rw [Gateway.found, hfind]; rfl
    have hlive := h.live _ ((h.resting _ _).1 hfind)
    rw [hfound]
    exact hdrop.cancelId (h.id_dropped hfind) fun _ => hlive.2

theorem InStep.cancelById {d : TradingDay} (h : d.InStep) {m : CancelByOrderId}
    (hc : d.Careful (.request (.cancelById m))) : (d.step (.request (.cancelById m))).InStep := by
  unfold InStep step Gateway.handle DayLedger.requested
  dsimp only
  obtain ⟨⟨now, hcanceled⟩, hrest, hseq⟩ := d.gateway.cancelByOrderId_spec m
  have hdead : ∀ p ∈ d.ledger.live, p.2.orderId ≠ m.orderId :=
    fun p hp => hc.1 p.1 p.2 ((h.resting p.1 p.2).2 hp)
  have hsame : (d.ledger.live.filter fun p => p.2.orderId ≠ m.orderId) = d.ledger.live := by
    rw [List.filter_eq_self]
    intro p hp
    exact decide_eq_true (hdead p hp)
  rw [hcanceled, hrest, hseq, hsame, List.foldl_cons, List.foldl_nil, DayLedger.answered]
  exact h.cancelId hdead hc.2

theorem InStep.replace {d : TradingDay} (h : d.InStep) {m : ReplaceOrder} (hp : d.Possible (.request (.replace m)))
    (hc : d.Careful (.request (.replace m))) : (d.step (.request (.replace m))).InStep := by
  unfold InStep step Gateway.handle DayLedger.requested
  dsimp only
  obtain ⟨⟨now, hreplaced⟩, hrest, hseq⟩ := d.gateway.replaceOrder_spec m
  obtain ⟨o, hfind⟩ := Option.ne_none_iff_exists'.1 hc.1
  have hfound : d.gateway.found m.existingOrderToken = o := by rw [Gateway.found, hfind]; rfl
  have hlive := h.live _ ((h.resting _ _).1 hfind)
  have hdropped := h.id_dropped hfind
  rw [hreplaced, hrest, hseq, hfound, List.foldl_cons, List.foldl_nil, DayLedger.answered, DayLedger.replace]
  have hprevious : ∀ now book side, (Gateway.replacedMessage m d.gateway.orderIdSeq now book side).previousOrderToken =
      m.existingOrderToken := fun _ _ _ => rfl
  simp only [hprevious, h.find_live, hfind, Option.map_some]
  -- the old order leaves, its id is replaced, and the new one is assigned and rests
  have hassign := (((h.dropToken m.existingOrderToken).retire hdropped hlive.1 hlive.2.1).assign hp)
  refine hassign.admitOrder ?_ ?_ ?_
  · rcases hc.2 with hsame | hfree
    · rw [hsame, Function.update_self]
    · by_cases hsame : m.replacementOrderToken = m.existingOrderToken
      · rw [hsame, Function.update_self]
      · rw [Function.update_of_ne hsame]
        exact hfree
  · refine ⟨List.mem_append_right _ List.mem_cons_self, ?_, ?_⟩
    · exact fun hmem => h.next_not_assigned (h.canceled _ hmem)
    · intro hmem
      rcases List.mem_append.1 hmem with hmem | hmem
      · exact h.next_not_assigned (h.replaced _ hmem).1
      · have hmem : d.gateway.orderIdSeq = o.orderId := List.mem_singleton.1 hmem
        rw [← hmem] at hlive
        exact h.next_not_assigned hlive.1
  · intro p hp' hid
    have hassigned := (h.live p (List.mem_filter.1 hp').1).1
    have hid : p.2.orderId = d.gateway.orderIdSeq := hid
    rw [hid] at hassigned
    exact h.next_not_assigned hassigned

theorem InStep.inactivateAll {d : TradingDay} (h : d.InStep) {clientFd : Int32}
    {snapshot : List (OrderToken × RestingOrder)} (hp : d.Possible (.inactivateAll clientFd snapshot))
    (hc : d.Careful (.inactivateAll clientFd snapshot)) : (d.step (.inactivateAll clientFd snapshot)).InStep := by
  unfold InStep step DayLedger.inactivated
  dsimp only
  by_cases hfd : 0 ≤ clientFd
  · obtain ⟨hreplies, hrest, hseq⟩ := d.gateway.inactivateAllResting_spec hfd snapshot
    have hsnap := hp hfd
    have hmem : ∀ p ∈ snapshot, p ∈ d.ledger.live := fun p hp' => (h.resting _ _).1 ((hsnap.mem _ _).1 hp')
    rw [hrest, hseq]
    refine h.clear.inactivate hreplies ?_ fun p hp' => (h.live p (hmem p hp')).2
    -- both list the same entries once
    have hperm : snapshot.Perm d.ledger.live :=
      (List.perm_ext_iff_of_nodup hsnap.nodup h.ids.of_map).2 fun p =>
        (hsnap.mem p.1 p.2).trans (h.resting p.1 p.2)
    exact (hperm.map _).nodup_iff.2 h.ids
  · have hnone := hc.resolve_left hfd
    have hempty : d.gateway.resting = fun _ => none := funext hnone
    have hlive : d.ledger.live = [] := by
      rw [List.eq_nil_iff_forall_not_mem]
      rintro ⟨token, order⟩ hmem
      have hsome := (h.resting token order).2 hmem
      rw [hnone] at hsome
      cases hsome
    rw [Gateway.inactivateAllResting, if_pos (Int32.not_le.1 hfd), List.foldl_nil]
    have hclear := h.clear
    rw [← hempty] at hclear
    exact hclear

theorem InStep.step {d : TradingDay} (h : d.InStep) {e : DayEvent} (hp : d.Possible e) (hc : d.Careful e) :
    (d.step e).InStep := by
  cases e with
  | request r =>
    cases r with
    | enter m => exact h.enter hp hc
    | cancel m => exact h.cancel m
    | cancelById m => exact h.cancelById hc
    | replace m => exact h.replace hp hc
  | inactivateAll clientFd snapshot => exact h.inactivateAll hp hc

/-! ## The other direction -/

/-- The iteration over `resting_` comes to an end. -/
def Countable (d : TradingDay) : Prop := ∃ snapshot, Gateway.Enumerates d.gateway.resting snapshot

theorem InStep.orderly {d : TradingDay} (h : d.InStep) : d.Orderly := by
  refine ⟨h.once, fun id hid => (h.replaced id hid).2, ?_⟩
  intro clientFd snapshot hfd hsnap
  have hperm : snapshot.Perm d.ledger.live :=
    (List.perm_ext_iff_of_nodup hsnap.nodup h.ids.of_map).2 fun p => (hsnap.mem p.1 p.2).trans (h.resting p.1 p.2)
  rw [(d.gateway.inactivateAllResting_spec hfd snapshot).1]
  exact hperm.map _

/-- In an orderly day the map holds the living orders. -/
theorem Orderly.resting_iff {d : TradingDay} (h : d.Orderly) (hcount : d.Countable) (token : OrderToken)
    (order : RestingOrder) : d.gateway.resting token = some order ↔ (token, order) ∈ d.ledger.live := by
  obtain ⟨snapshot, hsnap⟩ := hcount
  have hperm := h.inactivates 0 snapshot (by decide) hsnap
  rw [(d.gateway.inactivateAllResting_spec (by decide) snapshot).1] at hperm
  have hmem := hperm.mem_iff (a := some (token, order, 4))
  rw [← hsnap.mem]
  simpa using hmem

theorem Countable.erase {resting : OrderToken → Option RestingOrder} {snapshot : List (OrderToken × RestingOrder)}
    (h : Gateway.Enumerates resting snapshot) (token : OrderToken) :
    Gateway.Enumerates (Function.update resting token none) (snapshot.filter fun p => p.1 ≠ token) := by
  refine ⟨h.nodup.filter _, ?_⟩
  intro t o
  by_cases ht : t = token
  · simp [ht]
  · rw [Function.update_of_ne ht, ← h.mem t o]
    simp [ht]

theorem Countable.insert {resting : OrderToken → Option RestingOrder} {snapshot : List (OrderToken × RestingOrder)}
    (h : Gateway.Enumerates resting snapshot) (token : OrderToken) (order : RestingOrder) :
    Gateway.Enumerates (Function.update resting token (some order))
      ((token, order) :: snapshot.filter fun p => p.1 ≠ token) := by
  refine ⟨List.nodup_cons.2 ⟨by simp, h.nodup.filter _⟩, ?_⟩
  intro t o
  by_cases ht : t = token
  · simp [ht, eq_comm]
  · rw [Function.update_of_ne ht, ← h.mem t o]
    simp [ht]

/-- A request changes the entries of two tokens at most. -/
theorem Countable.step {d : TradingDay} (h : d.Countable) (e : DayEvent) : (d.step e).Countable := by
  obtain ⟨snapshot, hsnap⟩ := h
  unfold Countable TradingDay.step
  cases e with
  | request r =>
    cases r with
    | enter m =>
      rcases d.gateway.enterOrder_cases m with ⟨-, -, hrest, -⟩ | ⟨-, -, -, hrest, -⟩
      · exact ⟨snapshot, hrest ▸ hsnap⟩
      · dsimp only [Gateway.handle]
        rw [hrest]
        split
        · exact ⟨_, insert hsnap ..⟩
        · exact ⟨snapshot, hsnap⟩
    | cancel m =>
      dsimp only [Gateway.handle]
      rw [(d.gateway.cancelOrder_spec m).2.1]
      exact ⟨_, erase hsnap _⟩
    | cancelById m => exact ⟨snapshot, hsnap⟩
    | replace m => exact ⟨_, insert (erase hsnap _) ..⟩
  | inactivateAll clientFd met =>
    by_cases hfd : 0 ≤ clientFd
    · dsimp only
      rw [(d.gateway.inactivateAllResting_spec hfd met).2.1]
      exact ⟨[], List.nodup_nil, by simp⟩
    · dsimp only
      rw [Gateway.inactivateAllResting, if_pos (Int32.not_le.1 hfd)]
      exact ⟨snapshot, hsnap⟩

/-- No living order has the next id. -/
theorem InStep.new_id {d : TradingDay} (h : d.InStep) {token : OrderToken} {order : RestingOrder}
    (hlive : (token, order) ∈ d.ledger.live) : order.orderId ≠ d.gateway.orderIdSeq := by
  intro hid
  have hassigned := (h.live _ hlive).1
  dsimp only at hassigned
  rw [hid] at hassigned
  exact h.next_not_assigned hassigned

theorem InStep.careful_enter {d : TradingDay} (h : d.InStep) {m : EnterOrder}
    (ho : (d.step (.request (.enter m))).Orderly) : d.Careful (.request (.enter m)) := by
  intro hnew hprice hday
  by_contra hoccupied
  obtain ⟨old, hold⟩ := Option.ne_none_iff_exists'.1 hoccupied
  have hlive := (h.resting _ _).1 hold
  have hiff := ho.resting_iff (Countable.step ⟨_, h.enumerates⟩ _) m.orderToken old
  rcases d.gateway.enterOrder_cases m with ⟨hrejected, -⟩ | ⟨-, -, ⟨now, hacc⟩, hrest, -⟩
  · rcases hrejected with hseen | hhigh
    · exact hnew hseen
    · exact Int32.not_lt.2 hprice hhigh
  · -- the old order lives on in the ledger, but the map has the new one
    have hwire : (Gateway.acceptedMessage m d.gateway.orderIdSeq now).timeInForce = 0 := hday
    unfold TradingDay.step Gateway.handle DayLedger.requested at hiff
    dsimp only at hiff
    rw [hrest, if_pos hday, Function.update_self, hacc, List.foldl_cons, List.foldl_nil, DayLedger.answered,
      DayLedger.accept, if_pos hwire] at hiff
    have hnow := hiff.2 (List.mem_append_left _ hlive)
    rw [Option.some.injEq] at hnow
    exact h.new_id hlive (congrArg RestingOrder.orderId hnow.symm)

theorem InStep.careful_cancelById {d : TradingDay} (h : d.InStep) {m : CancelByOrderId}
    (ho : (d.step (.request (.cancelById m))).Orderly) : d.Careful (.request (.cancelById m)) := by
  obtain ⟨⟨now, hcanceled⟩, hrest, -⟩ := d.gateway.cancelByOrderId_spec m
  have honce := ho.once
  have hreplaced := ho.not_replaced m.orderId
  have hiff := ho.resting_iff (Countable.step ⟨_, h.enumerates⟩ _)
  unfold TradingDay.step Gateway.handle DayLedger.requested at honce hreplaced hiff
  dsimp only at honce hreplaced hiff
  rw [hcanceled, List.foldl_cons, List.foldl_nil, DayLedger.answered, DayLedger.cancel] at honce hreplaced
  constructor
  · intro token order hresting hid
    have hin := (hiff token order).1 (hrest ▸ hresting)
    rw [hcanceled, List.foldl_cons, List.foldl_nil, DayLedger.answered, DayLedger.cancel_live] at hin
    simp [hid] at hin
  · intro hassigned
    rw [if_pos hassigned] at honce hreplaced
    refine ⟨?_, ?_⟩
    · intro hmem
      exact (List.nodup_append.1 honce).2.2 _ hmem _ List.mem_cons_self rfl
    · intro hmem
      exact hreplaced hmem (List.mem_append_right _ List.mem_cons_self)

theorem InStep.careful_replace {d : TradingDay} (h : d.InStep) {m : ReplaceOrder}
    (ho : (d.step (.request (.replace m))).Orderly) : d.Careful (.request (.replace m)) := by
  obtain ⟨⟨now, hreplaced⟩, hrest, -⟩ := d.gateway.replaceOrder_spec m
  have hiff := ho.resting_iff (Countable.step ⟨_, h.enumerates⟩ _)
  have hprevious : ∀ now book side, (Gateway.replacedMessage m d.gateway.orderIdSeq now book side).previousOrderToken =
      m.existingOrderToken := fun _ _ _ => rfl
  unfold TradingDay.step Gateway.handle DayLedger.requested at hiff
  dsimp only at hiff
  simp only [hreplaced, hrest, List.foldl_cons, List.foldl_nil, DayLedger.answered, DayLedger.replace, hprevious,
    h.find_live] at hiff
  cases hfind : d.gateway.resting m.existingOrderToken with
  | none =>
    -- the gateway makes an order rest that never lived
    simp only [hfind, Option.map_none] at hiff
    have hlive := (hiff m.replacementOrderToken _).1 (Function.update_self ..)
    exact absurd rfl (h.new_id hlive)
  | some o =>
    refine ⟨by rw [hfind]; exact Option.some_ne_none o, ?_⟩
    by_contra hcollision
    obtain ⟨hne, hoccupied⟩ := not_or.1 hcollision
    obtain ⟨old, hold⟩ := Option.ne_none_iff_exists'.1 hoccupied
    have hlive := (h.resting _ _).1 hold
    -- the order under the replacement's token lives on in the ledger only
    simp only [hfind, Option.map_some] at hiff
    have hnow := (hiff m.replacementOrderToken old).2
      (List.mem_append_left _ (List.mem_filter.2 ⟨hlive, decide_eq_true hne⟩))
    rw [Function.update_self, Option.some.injEq] at hnow
    exact h.new_id hlive (congrArg RestingOrder.orderId hnow.symm)

theorem InStep.careful_inactivateAll {d : TradingDay} (h : d.InStep) {clientFd : Int32}
    {snapshot : List (OrderToken × RestingOrder)} (ho : (d.step (.inactivateAll clientFd snapshot)).Orderly) :
    d.Careful (.inactivateAll clientFd snapshot) := by
  by_contra hcareless
  obtain ⟨hfd, hrests⟩ := not_or.1 hcareless
  obtain ⟨token, hsome⟩ := not_forall.1 hrests
  obtain ⟨order, horder⟩ := Option.ne_none_iff_exists'.1 hsome
  have hiff := ho.resting_iff (Countable.step ⟨_, h.enumerates⟩ _) token order
  unfold TradingDay.step at hiff
  dsimp only at hiff
  rw [Gateway.inactivateAllResting, if_pos (Int32.not_le.1 hfd)] at hiff
  exact List.not_mem_nil (hiff.1 horder)

theorem orderly_iff {d : TradingDay} (h : d.InStep) {e : DayEvent} (hp : d.Possible e) :
    (d.step e).Orderly ↔ d.Careful e := by
  constructor
  · intro ho
    cases e with
    | request r =>
      cases r with
      | enter m => exact h.careful_enter ho
      | cancel m => trivial
      | cancelById m => exact h.careful_cancelById ho
      | replace m => exact h.careful_replace ho
    | inactivateAll clientFd snapshot => exact h.careful_inactivateAll ho
  · intro hc
    exact (h.step hp hc).orderly

/-! ## Whole days -/

theorem InStep.init {g : Gateway} (hfirst : g.orderIdSeq = 1) (hresting : ∀ token, g.resting token = none) :
    InStep { gateway := g } where
  resting token order := by simp [hresting]
  ids := List.nodup_nil
  live p hp := absurd hp List.not_mem_nil
  assigned id hid := absurd hid List.not_mem_nil
  replaced id hid := absurd hid List.not_mem_nil
  canceled id hid := absurd hid List.not_mem_nil
  once := List.nodup_nil
  started := by
    dsimp only
    rw [hfirst]
    decide

/-- A day of a new gateway stays orderly exactly as long as no request is careless. -/
theorem life_cycle_iff {g : Gateway} (hfirst : g.orderIdSeq = 1) (hresting : ∀ token, g.resting token = none)
    (events : List DayEvent) (hp : AllAlong step Possible { gateway := g } events) :
    AllAlong step (fun d e => (d.step e).Orderly) { gateway := g } events ↔
      AllAlong step Careful { gateway := g } events :=
  allAlong_congr_of_keeps InStep (fun _ _ h hp hc => h.step hp hc) (fun _ _ h hp => orderly_iff h hp)
    (InStep.init hfirst hresting) hp

def newGateway : Gateway := { wallNs := { reading := fun _ => 0 } }

def dayOrder : EnterOrder :=
  { EnterOrder.read [MsgType.enterOrder] with
    orderToken := OrderToken.ofText (ascii "D1"), orderBookId := 70616, side := Side.buy.toWire, quantity := 10,
    price := 6000 }

/-- A replace of the token `existing`. -/
def replaceOf (existing replacement : Bytes) : ReplaceOrder :=
  { ReplaceOrder.read [MsgType.replaceOrder] with
    existingOrderToken := OrderToken.ofText existing, replacementOrderToken := OrderToken.ofText replacement }

/-- What rests of `dayOrder`. -/
def dayRest : OrderToken × RestingOrder := (dayOrder.orderToken, ⟨70616, Side.buy.toWire, 1⟩)

/-- A day order, its cancel by order id, and the end of the day. -/
def canceledById : List DayEvent := [.request (.enter dayOrder),
  .request (.cancelById ⟨MsgType.cancelByOrderId, 70616, Side.buy.toWire, 1⟩), .inactivateAll 5 [dayRest]]

theorem canceledById_possible : AllAlong step Possible { gateway := newGateway } canceledById := by
  have hnone : Gateway.Enumerates (fun _ => none) [] := ⟨List.nodup_nil, by simp⟩
  have hfirst : (1 : UInt64).toNat + 1 < 2 ^ 64 := by decide
  have hsecond : (2 : UInt64).toNat + 1 < 2 ^ 64 := by decide
  refine ⟨hfirst, hsecond, ?_, trivial⟩
  intro _
  exact Countable.insert hnone dayRest.1 dayRest.2

theorem life_cycle_iff_canceledById :
    AllAlong step (fun d e => (d.step e).Orderly) { gateway := newGateway } canceledById ↔
      AllAlong step Careful { gateway := newGateway } canceledById :=
  life_cycle_iff rfl (fun _ => rfl) canceledById canceledById_possible

/-- The order's OrderCanceled comes twice: by its id, and at the end of the day. -/
theorem canceled_by_id_twice :
    AllAlong step Possible { gateway := newGateway } canceledById ∧
      (run step { gateway := newGateway } canceledById).ledger.canceled = [1, 1] ∧
      ¬ AllAlong step (fun d e => (d.step e).Orderly) { gateway := newGateway } canceledById := by
  have htwice : (run step { gateway := newGateway } canceledById).ledger.canceled = [1, 1] := by decide
  refine ⟨canceledById_possible, htwice, ?_⟩
  intro h
  have honce := h.2.2.1.once
  have honce : (run step { gateway := newGateway } canceledById).ledger.canceled.Nodup := honce
  rw [htwice] at honce
  exact absurd honce (by decide)

end TradingDay

end BistColo.Mock
