import BistColo.Mock.LifeCycle
/-!
# Inactivation while the worker works

The worker thread and the runner's `inactivate_all_resting` take turns at the
gateway, one block under `state_mu_` or one send at a time. Beside them runs a
ledger of the orders that the client knows to live. An order is acknowledged
before it is put into `resting_`, and its replacement is put there before it is
acknowledged, so a snapshot in between misses the one and may cancel the other
too early. `inactivation_complete` holds of every schedule without these turns;
`acknowledged_then_missed` is the first of them.
-/

open StreamKit

namespace BistColo.Mock

open Soup Ouch

namespace Gateway

/-- The block of a cancel under `state_mu_`, and the answer that is to be sent. -/
def cancelBlock (g : Gateway) (co : CancelOrder) : OrderCanceled × Gateway :=
  let (now, g) := g.timestamp
  match g.resting co.orderToken with
  | none => (⟨MsgType.orderCanceled, now, co.orderToken, 0, 0, 0, 1⟩, g)
  | some o => (⟨MsgType.orderCanceled, now, co.orderToken, o.orderBookId, o.side, o.orderId, 1⟩, g.erase co.orderToken)

/-- The block of a replace, and the answer. -/
def replaceBlock (g : Gateway) (ro : ReplaceOrder) : OrderReplaced × Gateway :=
  let (oid, g) := g.nextOrderId
  let (now, g) := g.timestamp
  let old := (g.resting ro.existingOrderToken).getD {}
  (replacedMessage ro oid now old.orderBookId old.side,
    (g.erase ro.existingOrderToken).rest ro.replacementOrderToken ⟨old.orderBookId, old.side, oid⟩)

theorem cancelOrder_eq_block (g : Gateway) (co : CancelOrder) :
    g.cancelOrder co = ([.canceled (g.cancelBlock co).1], (g.cancelBlock co).2) := by
  unfold cancelOrder cancelBlock
  dsimp only
  cases g.timestamp.2.resting co.orderToken with
  | none => rfl
  | some o => rfl

end Gateway

/-! ## The threads -/

/-- What the worker has left to do with its request. -/
inductive Phase
  | idle
  | rejecting (m : OrderRejected)
  | accepting (m : EnterOrder)
  | inserting (token : OrderToken) (order : RestingOrder)
  | canceling (m : OrderCanceled)
  | replacing (m : OrderReplaced)

/-- The requests that touch `resting_`. -/
inductive WorkerRequest
  | enter (m : EnterOrder)
  | cancel (m : CancelOrder)
  | replace (m : ReplaceOrder)

def WorkerRequest.order : WorkerRequest → OrderRequest
  | enter m => .enter m
  | cancel m => .cancel m
  | replace m => .replace m

/-- The gateway, where its two threads are, and what has been sent. In the
ledger are the day orders the client has been told of and not been told the end
of, and the ids of those that lived when a call of `inactivate_all_resting`
started. -/
structure Threads where
  gateway : Gateway
  phase : Phase := .idle
  /-- What the runner's call has left of its snapshot. -/
  pending : List (OrderToken × RestingOrder) := []
  wire : List Reply := []
  live : List (OrderToken × UInt64) := []
  owed : List UInt64 := []

/-- An atomic step of a thread. -/
inductive Act
  | request (r : WorkerRequest)
  | worker
  | inactivate (clientFd : Int32) (snapshot : List (OrderToken × RestingOrder))
  | emit

namespace Threads

/-- What an answer tells the client about its day orders. -/
def told (live : List (OrderToken × UInt64)) : Reply → List (OrderToken × UInt64)
  | .accepted m => if m.timeInForce = 0 then live ++ [(m.orderToken, m.orderId)] else live
  | .replaced m => live ++ [(m.replacementOrderToken, m.orderId)]
  | .canceled m => live.filter fun p => p.2 ≠ m.orderId
  | .rejected _ | .massQuoteAck _ | .massQuoteRejection _ => live

def send (s : Threads) (r : Reply) : Threads := { s with wire := s.wire ++ [r], live := told s.live r }

local instance : LawfulBEq OrderToken := instLawfulBEq

/-- The first step of a request: its block, or the search of `seen_tokens_`,
where a duplicate is rejected under the lock. -/
def take (s : Threads) : WorkerRequest → Threads
  | .enter m =>
    if m.orderToken ∈ s.gateway.seenTokens then
      let (now, g) := s.gateway.timestamp
      { s with gateway := g }.send (.rejected ⟨MsgType.orderRejected, now, m.orderToken, RejectCode.tokenNotUnique⟩)
    else
      let g := s.gateway.see m.orderToken
      if 9000 < m.price then
        let (now, g) := g.timestamp
        { s with gateway := g, phase := .rejecting ⟨MsgType.orderRejected, now, m.orderToken, RejectCode.priceOutsideLimits⟩ }
      else { s with gateway := g, phase := .accepting m }
  | .cancel m =>
    let r := s.gateway.cancelBlock m
    { s with gateway := r.2, phase := .canceling r.1, live := s.live.filter fun p => p.1 ≠ m.orderToken }
  | .replace m =>
    let r := s.gateway.replaceBlock m
    { s with gateway := r.2, phase := .replacing r.1, live := s.live.filter fun p => p.1 ≠ m.existingOrderToken }

/-- The next step of a request. -/
def work (s : Threads) : Threads :=
  match s.phase with
  | .idle => s
  | .rejecting m => { s with phase := .idle }.send (.rejected m)
  | .accepting m =>
    let (oid, g) := s.gateway.nextOrderId
    let (now, g) := g.timestamp
    { s with
      gateway := g,
      phase := if m.timeInForce = 0 then .inserting m.orderToken ⟨m.orderBookId, m.side, oid⟩ else .idle }.send
        (.accepted (Gateway.acceptedMessage m oid now))
  | .inserting token order => { s with gateway := s.gateway.rest token order, phase := .idle }
  | .canceling m => { s with phase := .idle }.send (.canceled m)
  | .replacing m => { s with phase := .idle }.send (.replaced m)

/-- The snapshot of a call. -/
def inactivate (s : Threads) (clientFd : Int32) (snapshot : List (OrderToken × RestingOrder)) : Threads :=
  let s := { s with live := [], owed := s.owed ++ s.live.map Prod.snd }
  if clientFd < 0 then s
  else { s with gateway := { s.gateway with resting := fun _ => none }, pending := snapshot }

/-- A thread that has not come that far leaves everything as it is. -/
def step (s : Threads) : Act → Threads
  | .request r =>
    match s.phase with
    | .idle => s.take r
    | _ => s
  | .worker => s.work
  | .inactivate clientFd snapshot =>
    match s.pending with
    | [] => s.inactivate clientFd snapshot
    | _ => s
  | .emit =>
    match s.pending with
    | [] => s
    | (token, order) :: pending =>
      let r := s.gateway.emitCanceled token order 4
      { s with gateway := r.2, pending := pending }.send r.1

/-! ## What is asked of a schedule -/

def ackedId : Reply → Option UInt64
  | .accepted m => some m.orderId
  | .replaced m => some m.orderId
  | _ => none

def inactivatedId : Reply → Option UInt64
  | .canceled m => if m.reason = 4 then some m.orderId else none
  | _ => none

/-- The order ids of the OrderAccepteds and OrderReplaceds. -/
def acks (wire : List Reply) : List UInt64 := wire.filterMap ackedId

/-- The order ids of the OrderCanceleds with reason 4. -/
def inactivated (wire : List Reply) : List UInt64 := wire.filterMap inactivatedId

def pendingIds (s : Threads) : List UInt64 := s.pending.map fun p => p.2.orderId

/-- The OrderCanceled of an order comes after its acknowledgement. An unknown
token is answered with the order id 0. -/
def Ordered (wire : List Reply) : Prop :=
  ∀ pre m post, wire = pre ++ .canceled m :: post → m.orderId ≠ 0 → m.orderId ∈ acks pre

/-- What is asked of every state. -/
structure Complete (s : Threads) : Prop where
  /-- Once no call runs, each order that lived when one started has got one
  OrderCanceled with reason 4; before, it may be among those to come. -/
  canceled : ∀ id ∈ s.owed, (inactivated s.wire).count id + s.pendingIds.count id = 1
  ordered : Ordered s.wire

/-- What the machine provides: order ids do not run out, and the snapshot has
every entry of the map once. -/
def Possible (s : Threads) : Act → Prop
  | .request _ | .worker => s.gateway.orderIdSeq.toNat + 1 < 2 ^ 64
  | .inactivate clientFd snapshot => 0 ≤ clientFd → Gateway.Enumerates s.gateway.resting snapshot
  | .emit => True

/-- A turn that does no harm. -/
def Careful (s : Threads) : Act → Prop
  | .request (.replace m) => s.phase = .idle →
      m.replacementOrderToken = m.existingOrderToken ∨ s.gateway.resting m.replacementOrderToken = none
  | .request (.enter _) | .request (.cancel _) => True
  -- what rests under the token would be lost
  | .worker => ∀ token order, s.phase = .inserting token order → s.gateway.resting token = none
  -- an order acknowledged and not yet inserted would be missed
  | .inactivate clientFd _ => s.pending = [] →
      if clientFd < 0 then s.live = [] else ∀ token order, s.phase ≠ .inserting token order
  -- the replacement has been inserted and not yet acknowledged
  | .emit => ∀ m p, s.phase = .replacing m → s.pending.head? = some p → p.2.orderId ≠ m.orderId

/-! ## The worker alone -/

/-- Without the runner, the steps of a request are those of the gateway. -/
theorem worker_alone (s : Threads) (h : s.phase = .idle) (r : WorkerRequest) :
    (run step s [.request r, .worker, .worker]).phase = .idle ∧
      (run step s [.request r, .worker, .worker]).gateway = (s.gateway.handle r.order).2 ∧
      (run step s [.request r, .worker, .worker]).wire = s.wire ++ (s.gateway.handle r.order).1 := by
  obtain ⟨g, phase, pending, wire, live, owed⟩ := s
  have h : phase = .idle := h
  subst h
  rw [run_cons, run_cons, run_cons, run_nil]
  cases r with
  | enter m =>
    unfold WorkerRequest.order Gateway.handle Gateway.enterOrder step take
    dsimp only
    split
    · exact ⟨rfl, rfl, rfl⟩
    · split
      · exact ⟨rfl, rfl, rfl⟩
      · unfold work
        dsimp only [send]
        by_cases hday : m.timeInForce = 0
        · simp only [if_pos hday, and_self]
        · simp only [if_neg hday, and_self]
  | cancel m =>
    unfold WorkerRequest.order Gateway.handle
    dsimp only
    rw [Gateway.cancelOrder_eq_block]
    exact ⟨rfl, rfl, rfl⟩
  | replace m => exact ⟨rfl, rfl, rfl⟩

/-! ## What holds between the steps -/

/-- The order that the worker has acknowledged and will insert. -/
def waiting (s : Threads) : Option (OrderToken × UInt64) :=
  match s.phase with
  | .inserting token order => some (token, order.orderId)
  | _ => none

/-- The replacement that the worker has inserted and will acknowledge. -/
def held (s : Threads) : Option (OrderToken × UInt64) :=
  match s.phase with
  | .replacing m => some (m.replacementOrderToken, m.orderId)
  | _ => none

/-- The order rests under the token. -/
def Rests (s : Threads) (p : OrderToken × UInt64) : Prop :=
  ∃ order, s.gateway.resting p.1 = some order ∧ order.orderId = p.2

/-- The ids in use. -/
def Known (s : Threads) (id : UInt64) : Prop :=
  id ∈ s.live.map Prod.snd ∨ id ∈ s.pendingIds ∨ id ∈ inactivated s.wire ∨ ∃ p, s.held = some p ∧ p.2 = id

structure Sound (s : Threads) : Prop where
  /-- What rests lives, or is about to be acknowledged. -/
  rests : ∀ p, s.Rests p → p ∈ s.live ∨ s.held = some p
  /-- What lives rests, or is about to be inserted, or has an OrderCanceled under way. -/
  lives : ∀ p ∈ s.live, p.2 ∈ s.pendingIds ∨ s.Rests p ∨ s.waiting = some p
  uncanceled : ∀ p, s.Rests p → p.2 ∉ s.pendingIds ∧ p.2 ∉ inactivated s.wire
  distinct : (s.live.map Prod.snd).Nodup
  held : ∀ p, s.held = some p → p.2 ∉ s.live.map Prod.snd ∧ p.2 ∉ inactivated s.wire ∧
    (p.2 ∈ s.pendingIds ∨ s.Rests p)
  waiting : ∀ p, s.waiting = some p → p ∈ s.live ∧ p.2 ∉ s.pendingIds
  live : ∀ p ∈ s.live, p.2 ∉ inactivated s.wire ∧ p.2 ∈ acks s.wire
  once : (s.pendingIds ++ inactivated s.wire).Nodup
  owed : ∀ id ∈ s.owed, id ∈ s.pendingIds ∨ id ∈ inactivated s.wire
  pending : ∀ id ∈ s.pendingIds, id ∈ acks s.wire ∨ ∃ p, s.held = some p ∧ p.2 = id
  canceling : ∀ m, s.phase = .canceling m → m.reason ≠ 4 ∧ m.orderId ∉ s.live.map Prod.snd ∧
    (m.orderId ≠ 0 → m.orderId ∈ acks s.wire)
  ordered : Ordered s.wire
  known : ∀ id, s.Known id → 0 < id.toNat ∧ id.toNat < s.gateway.orderIdSeq.toNat
  started : 0 < s.gateway.orderIdSeq.toNat

/-- Each order that a call owes an OrderCanceled has got one or will. -/
theorem Sound.complete {s : Threads} (h : s.Sound) : s.Complete := by
  refine ⟨?_, h.ordered⟩
  intro id hid
  have hmem : id ∈ s.pendingIds ++ inactivated s.wire := List.mem_append.2 (h.owed id hid)
  have hone := List.count_eq_one_of_mem h.once hmem
  rw [List.count_append] at hone
  omega

theorem ordered_snoc {wire : List Reply} {r : Reply} (h : Ordered wire)
    (hr : ∀ m, r = .canceled m → m.orderId ≠ 0 → m.orderId ∈ acks wire) : Ordered (wire ++ [r]) := by
  intro pre m post hsplit hid
  rcases List.eq_nil_or_concat post with rfl | ⟨post, last, rfl⟩
  · obtain ⟨rfl, hlast⟩ := List.append_inj' hsplit rfl
    exact hr m (List.singleton_inj.1 hlast) hid
  · rw [List.concat_eq_append, ← List.cons_append, ← List.append_assoc] at hsplit
    exact h pre m post (List.append_inj' hsplit rfl).1 hid

/-- Two living orders are not told apart by their ids. -/
theorem Sound.live_unique {s : Threads} (h : s.Sound) {p q : OrderToken × UInt64} (hp : p ∈ s.live) (hq : q ∈ s.live)
    (hid : p.2 = q.2) : p = q :=
  List.inj_on_of_nodup_map h.distinct hp hq hid

theorem Sound.next_unknown {s : Threads} (h : s.Sound) : ¬ s.Known s.gateway.orderIdSeq :=
  fun hnext => absurd (h.known _ hnext).2 (lt_irrefl _)

theorem Sound.zero_unknown {s : Threads} (h : s.Sound) : ¬ s.Known 0 :=
  fun hzero => absurd (h.known _ hzero).1 (by decide)

theorem acks_snoc {wire : List Reply} {r : Reply} (h : ackedId r = none) : acks (wire ++ [r]) = acks wire := by
  simp [acks, h]

theorem inactivated_snoc {wire : List Reply} {r : Reply} (h : inactivatedId r = none) :
    inactivated (wire ++ [r]) = inactivated wire := by
  simp [inactivated, h]

/-! ## Steps -/

/-- Nothing of what is kept has changed, and the worker keeps no order. -/
theorem Sound.quiet {s s' : Threads} (h : s.Sound) (hrest : s'.gateway.resting = s.gateway.resting)
    (hseq : s'.gateway.orderIdSeq = s.gateway.orderIdSeq) (hpending : s'.pending = s.pending) (hlive : s'.live = s.live)
    (howed : s'.owed = s.owed) (hacks : acks s'.wire = acks s.wire)
    (hinactivated : inactivated s'.wire = inactivated s.wire) (hordered : Ordered s'.wire)
    (hheld : s.held = none ∧ s'.held = none) (hwaiting : s.waiting = none ∧ s'.waiting = none)
    (hphase : ∀ m, s'.phase ≠ .canceling m) : s'.Sound := by
  obtain ⟨hheld, hheld'⟩ := hheld
  obtain ⟨hwaiting, hwaiting'⟩ := hwaiting
  have hids : s'.pendingIds = s.pendingIds := by rw [pendingIds, pendingIds, hpending]
  have hrests : ∀ p, s'.Rests p ↔ s.Rests p := by
    intro p
    rw [Rests, Rests, hrest]
  obtain ⟨rests, lives, uncanceled, distinct, -, -, live, once, owed, pending, -, -, known, started⟩ := h
  refine ⟨?_, ?_, ?_, ?_, ?_, ?_, ?_, ?_, ?_, ?_, ?_, hordered, ?_, ?_⟩
  · intro p hp
    rw [hlive, hheld', ← hheld]
    exact rests p ((hrests p).1 hp)
  · rw [hlive, hids, hwaiting', ← hwaiting]
    intro p hp
    rw [hrests]
    exact lives p hp
  · intro p hp
    rw [hids, hinactivated]
    exact uncanceled p ((hrests p).1 hp)
  · rw [hlive]
    exact distinct
  · rw [hheld']
    nofun
  · rw [hwaiting']
    nofun
  · rw [hlive, hinactivated, hacks]
    exact live
  · rw [hids, hinactivated]
    exact once
  · rw [howed, hids, hinactivated]
    exact owed
  · rw [hids, hacks, hheld', ← hheld]
    exact pending
  · intro m hm
    exact absurd hm (hphase m)
  · intro id hid
    rw [Known, hlive, hids, hinactivated, hheld', ← hheld] at hid
    rw [hseq]
    exact known id hid
  · rw [hseq]
    exact started

theorem Sound.take_enter {s : Threads} (h : s.Sound) (hphase : s.phase = .idle) (m : EnterOrder) :
    (s.take (.enter m)).Sound := by
  have hheld : s.held = none := by rw [Threads.held, hphase]
  have hwaiting : s.waiting = none := by rw [Threads.waiting, hphase]
  have hrejected : ∀ j, Ordered (s.wire ++ [.rejected j]) := fun j => ordered_snoc h.ordered nofun
  unfold take
  dsimp only
  split
  · refine h.quiet rfl rfl rfl rfl rfl (acks_snoc rfl) (inactivated_snoc rfl) (hrejected _) ⟨hheld, ?_⟩ ⟨hwaiting, ?_⟩ ?_
    · exact hheld
    · exact hwaiting
    · intro j hj
      have hj : s.phase = .canceling j := hj
      rw [hphase] at hj
      cases hj
  · split
    · exact h.quiet rfl rfl rfl rfl rfl rfl rfl h.ordered ⟨hheld, rfl⟩ ⟨hwaiting, rfl⟩ nofun
    · exact h.quiet rfl rfl rfl rfl rfl rfl rfl h.ordered ⟨hheld, rfl⟩ ⟨hwaiting, rfl⟩ nofun

/-- A cancel takes the order of its token from the map and from the ledger. -/
theorem cancelBlock_spec (g : Gateway) (co : CancelOrder) :
    (g.cancelBlock co).1.orderId = (g.found co.orderToken).orderId ∧ (g.cancelBlock co).1.reason = 1 ∧
      (g.cancelBlock co).2.resting = Function.update g.resting co.orderToken none ∧
      (g.cancelBlock co).2.orderIdSeq = g.orderIdSeq := by
  obtain ⟨⟨now, hanswer⟩, hrest, hseq⟩ := g.cancelOrder_spec co
  rw [g.cancelOrder_eq_block] at hanswer hrest hseq
  rw [List.singleton_inj, Reply.canceled.injEq] at hanswer
  rw [hanswer]
  exact ⟨rfl, rfl, hrest, hseq⟩

theorem Sound.take_cancel {s : Threads} (h : s.Sound) (hphase : s.phase = .idle) (m : CancelOrder) :
    (s.take (.cancel m)).Sound := by
  obtain ⟨hid, hreason, hrest, hseq⟩ := cancelBlock_spec s.gateway m
  have hheld : s.held = none := by rw [Threads.held, hphase]
  have hwaiting : s.waiting = none := by rw [Threads.waiting, hphase]
  have hsub : ∀ p, p ∈ (s.take (.cancel m)).live ↔ p ∈ s.live ∧ p.1 ≠ m.orderToken := by
    intro p
    rw [take, List.mem_filter, decide_eq_true_iff]
  have hrests : ∀ p, (s.take (.cancel m)).Rests p ↔ s.Rests p ∧ p.1 ≠ m.orderToken := by
    intro p
    rw [take, Rests, Rests]
    dsimp only
    rw [hrest]
    by_cases htoken : p.1 = m.orderToken
    · rw [htoken, Function.update_self]
      simp
    · rw [Function.update_of_ne htoken]
      simp [htoken]
  have hfound : ∀ o, s.gateway.resting m.orderToken = some o → (m.orderToken, o.orderId) ∈ s.live := by
    intro o ho
    refine (h.rests (m.orderToken, o.orderId) ⟨o, ho, rfl⟩).resolve_right ?_
    rw [hheld]
    nofun
  have hnext : (s.take (.cancel m)).gateway.orderIdSeq = s.gateway.orderIdSeq := hseq
  refine ⟨?_, ?_, ?_, ?_, nofun, nofun, ?_, h.once, h.owed, ?_, ?_, h.ordered, ?_, ?_⟩
  · intro p hp
    obtain ⟨hp, htoken⟩ := (hrests p).1 hp
    rcases h.rests p hp with hlive | hp
    · exact .inl ((hsub p).2 ⟨hlive, htoken⟩)
    · rw [hheld] at hp
      cases hp
  · intro p hp
    obtain ⟨hp, htoken⟩ := (hsub p).1 hp
    rcases h.lives p hp with hpending | hp | hp
    · exact .inl hpending
    · exact .inr (.inl ((hrests p).2 ⟨hp, htoken⟩))
    · rw [hwaiting] at hp
      cases hp
  · intro p hp
    exact h.uncanceled p ((hrests p).1 hp).1
  · exact h.distinct.sublist (List.filter_sublist.map _)
  · intro p hp
    exact h.live p ((hsub p).1 hp).1
  · intro id hid
    refine .inl ((h.pending id hid).resolve_right ?_)
    rw [hheld]
    rintro ⟨p, hp, -⟩
    cases hp
  · rintro m' ⟨⟩
    rw [hid, hreason]
    refine ⟨by decide, ?_, ?_⟩
    · intro hmem
      obtain ⟨p, hp, hpid⟩ := List.mem_map.1 hmem
      obtain ⟨hp, htoken⟩ := (hsub p).1 hp
      cases hfind : s.gateway.resting m.orderToken with
      | none =>
        have hzero : p.2 = 0 := by rw [hpid, Gateway.found, hfind]; rfl
        exact h.zero_unknown (.inl (hzero ▸ List.mem_map_of_mem hp))
      | some o =>
        have hsame : p = (m.orderToken, o.orderId) := by
          refine h.live_unique hp (hfound o hfind) ?_
          rw [hpid, Gateway.found, hfind]
          rfl
        exact htoken (congrArg Prod.fst hsame)
    · intro hne
      cases hfind : s.gateway.resting m.orderToken with
      | none =>
        rw [Gateway.found, hfind] at hne
        exact absurd rfl hne
      | some o =>
        rw [Gateway.found, hfind]
        exact (h.live _ (hfound o hfind)).2
  · intro id hid
    have hknown : s.Known id := by
      rcases hid with hid | hid | hid | ⟨p, hp, -⟩
      · obtain ⟨p, hp, rfl⟩ := List.mem_map.1 hid
        exact .inl (List.mem_map_of_mem ((hsub p).1 hp).1)
      · exact .inr (.inl hid)
      · exact .inr (.inr (.inl hid))
      · cases hp
    rw [hnext]
    exact h.known id hknown
  · rw [hnext]
    exact h.started

theorem Sound.take_replace {s : Threads} (h : s.Sound) (hphase : s.phase = .idle) {m : ReplaceOrder}
    (hp : s.Possible (.request (.replace m))) (hc : s.Careful (.request (.replace m))) :
    (s.take (.replace m)).Sound := by
  have hheld : s.held = none := by rw [Threads.held, hphase]
  have hwaiting : s.waiting = none := by rw [Threads.waiting, hphase]
  have hnew : (s.take (.replace m)).held = some (m.replacementOrderToken, s.gateway.orderIdSeq) := rfl
  have hnext : (s.take (.replace m)).gateway.orderIdSeq.toNat = s.gateway.orderIdSeq.toNat + 1 :=
    Agrees.next_succ hp
  have hsub : ∀ p, p ∈ (s.take (.replace m)).live ↔ p ∈ s.live ∧ p.1 ≠ m.existingOrderToken := by
    intro p
    rw [take, List.mem_filter, decide_eq_true_iff]
  have hrests : ∀ p, (s.take (.replace m)).Rests p ↔ p = (m.replacementOrderToken, s.gateway.orderIdSeq) ∨
      (p.1 ≠ m.replacementOrderToken ∧ p.1 ≠ m.existingOrderToken ∧ s.Rests p) := by
    rintro ⟨token, id⟩
    have hrest : (s.take (.replace m)).gateway.resting = Function.update (Function.update s.gateway.resting
        m.existingOrderToken none) m.replacementOrderToken _ := rfl
    rw [Rests, Rests, hrest]
    dsimp only
    by_cases hrep : token = m.replacementOrderToken
    · rw [hrep, Function.update_self]
      simp [eq_comm]
    · rw [Function.update_of_ne hrep]
      by_cases hold : token = m.existingOrderToken
      · rw [hold, Function.update_self]
        simp [hold ▸ hrep]
      · rw [Function.update_of_ne hold]
        simp [hrep, hold]
  have hunknown : ∀ id, s.Known id → id ≠ s.gateway.orderIdSeq := by
    rintro id hid rfl
    exact h.next_unknown hid
  refine ⟨?_, ?_, ?_, ?_, ?_, nofun, ?_, h.once, h.owed, ?_, nofun, h.ordered, ?_, ?_⟩
  · intro p hp
    rcases (hrests p).1 hp with rfl | ⟨-, htoken, hp⟩
    · exact .inr hnew
    · rcases h.rests p hp with hlive | hp
      · exact .inl ((hsub p).2 ⟨hlive, htoken⟩)
      · rw [hheld] at hp
        cases hp
  · intro p hp
    obtain ⟨hp, htoken⟩ := (hsub p).1 hp
    rcases h.lives p hp with hpending | hrest | hp
    · exact .inl hpending
    · -- the replacement takes no other order's token
      have hrep : p.1 ≠ m.replacementOrderToken := by
        intro hrep
        obtain ⟨o, ho, -⟩ := hrest
        rcases hc hphase with hsame | hfree
        · exact htoken (hrep.trans hsame)
        · rw [hrep, hfree] at ho
          cases ho
      exact .inr (.inl ((hrests p).2 (.inr ⟨hrep, htoken, hrest⟩)))
    · rw [hwaiting] at hp
      cases hp
  · intro p hp
    rcases (hrests p).1 hp with rfl | ⟨-, -, hp⟩
    · exact ⟨fun hid => h.next_unknown (.inr (.inl hid)), fun hid => h.next_unknown (.inr (.inr (.inl hid)))⟩
    · exact h.uncanceled p hp
  · exact h.distinct.sublist (List.filter_sublist.map _)
  · rintro p hp
    rw [hnew] at hp
    cases hp
    refine ⟨?_, fun hid => h.next_unknown (.inr (.inr (.inl hid))), .inr ((hrests _).2 (.inl rfl))⟩
    intro hid
    obtain ⟨p, hp, hpid⟩ := List.mem_map.1 hid
    exact hunknown _ (.inl (List.mem_map_of_mem ((hsub p).1 hp).1)) hpid
  · intro p hp
    exact h.live p ((hsub p).1 hp).1
  · intro id hid
    refine .inl ((h.pending id hid).resolve_right ?_)
    rw [hheld]
    rintro ⟨p, hp, -⟩
    cases hp
  · intro id hid
    rw [hnext]
    have hbefore : s.Known id → 0 < id.toNat ∧ id.toNat < s.gateway.orderIdSeq.toNat + 1 := by
      intro hknown
      obtain ⟨hpos, hlt⟩ := h.known id hknown
      exact ⟨hpos, by omega⟩
    rcases hid with hid | hid | hid | ⟨p, hp, rfl⟩
    · obtain ⟨p, hp, rfl⟩ := List.mem_map.1 hid
      exact hbefore (.inl (List.mem_map_of_mem ((hsub p).1 hp).1))
    · exact hbefore (.inr (.inl hid))
    · exact hbefore (.inr (.inr (.inl hid)))
    · rw [hnew] at hp
      cases hp
      exact ⟨h.started, Nat.lt_succ_self _⟩
  · rw [hnext]
    exact Nat.succ_pos _

theorem Sound.work_accepting {s : Threads} (h : s.Sound) {m : EnterOrder} (hphase : s.phase = .accepting m)
    (hp : s.Possible .worker) : s.work.Sound := by
  have hheld : s.held = none := by rw [Threads.held, hphase]
  have hwaiting : s.waiting = none := by rw [Threads.waiting, hphase]
  obtain ⟨g, phase, pending, wire, live, owed⟩ := s
  have hphase : phase = .accepting m := hphase
  subst hphase
  have hunknown := h.next_unknown
  set s : Threads := ⟨g, .accepting m, pending, wire, live, owed⟩ with hs
  have hnext : s.work.gateway.orderIdSeq.toNat = g.orderIdSeq.toNat + 1 := Agrees.next_succ hp
  have hacks : acks s.work.wire = acks wire ++ [g.orderIdSeq] := List.filterMap_append
  have hinactivated : inactivated s.work.wire = inactivated wire := inactivated_snoc rfl
  have hheld' : s.work.held = none := by
    by_cases hday : m.timeInForce = 0
    · simp [Threads.held, work, send, hs, hday]
    · simp [Threads.held, work, send, hs, hday]
  -- a day order lives from now on, and waits to be inserted
  have hlive : (s.work.live = live ∧ s.work.waiting = none) ∨
      ∃ p : OrderToken × UInt64, s.work.live = live ++ [p] ∧ p.2 = g.orderIdSeq ∧ s.work.waiting = some p := by
    by_cases hday : m.timeInForce = 0
    · refine .inr ⟨(m.orderToken, g.orderIdSeq), ?_, rfl, ?_⟩
      · exact if_pos hday
      · simp [Threads.waiting, work, send, hs, hday, Gateway.nextOrderId]
    · refine .inl ⟨if_neg hday, ?_⟩
      simp [Threads.waiting, work, send, hs, hday]
  have hbefore : ∀ p ∈ live, p ∈ s.work.live := by
    intro p hp
    rcases hlive with ⟨hsame, -⟩ | ⟨q, hadded, -, -⟩
    · rwa [hsame]
    · rw [hadded]
      exact List.mem_append_left _ hp
  have hafter : ∀ p ∈ s.work.live, p ∈ live ∨ (p.2 = g.orderIdSeq ∧ s.work.waiting = some p) := by
    intro p hp
    rcases hlive with ⟨hsame, -⟩ | ⟨q, hadded, hid, hwaits⟩
    · exact .inl (hsame ▸ hp)
    · rw [hadded] at hp
      rcases List.mem_append.1 hp with hp | hp
      · exact .inl hp
      · rw [List.mem_singleton.1 hp]
        exact .inr ⟨hid, hwaits⟩
  have hwaits : ∀ p, s.work.waiting = some p → p ∈ s.work.live ∧ p.2 = g.orderIdSeq := by
    intro p hp
    rcases hlive with ⟨-, hnone⟩ | ⟨q, hadded, hid, hsome⟩
    · rw [hnone] at hp
      cases hp
    · rw [hsome, Option.some.injEq] at hp
      rw [← hp, hadded]
      exact ⟨List.mem_append_right _ List.mem_cons_self, hid⟩
  have hdistinct : (s.work.live.map Prod.snd).Nodup := by
    rcases hlive with ⟨hsame, -⟩ | ⟨q, hadded, hid, -⟩
    · rw [hsame]
      exact h.distinct
    · rw [hadded, List.map_append, List.map_singleton, List.nodup_append]
      refine ⟨h.distinct, List.nodup_singleton _, ?_⟩
      intro id hold id' hnew
      rw [List.mem_singleton.1 hnew, hid]
      rintro rfl
      exact hunknown (.inl hold)
  refine ⟨?_, ?_, ?_, hdistinct, ?_, ?_, ?_, ?_, ?_, ?_, ?_, ?_, ?_, ?_⟩
  · intro p hp
    rcases h.rests p hp with hp | hp
    · exact .inl (hbefore p hp)
    · rw [hheld] at hp
      cases hp
  · intro p hp
    rcases hafter p hp with hp | ⟨-, hp⟩
    · rcases h.lives p hp with hpending | hrest | hp
      · exact .inl hpending
      · exact .inr (.inl hrest)
      · rw [hwaiting] at hp
        cases hp
    · exact .inr (.inr hp)
  · intro p hp
    rw [hinactivated]
    exact h.uncanceled p hp
  · rw [hheld']
    nofun
  · intro p hp
    obtain ⟨hp, hid⟩ := hwaits p hp
    refine ⟨hp, ?_⟩
    rw [hid]
    exact fun hpending => hunknown (.inr (.inl hpending))
  · intro p hp
    rw [hinactivated, hacks]
    rcases hafter p hp with hp | ⟨hid, -⟩
    · obtain ⟨hnot, hack⟩ := h.live p hp
      exact ⟨hnot, List.mem_append_left _ hack⟩
    · rw [hid]
      exact ⟨fun hdone => hunknown (.inr (.inr (.inl hdone))), List.mem_append_right _ List.mem_cons_self⟩
  · rw [hinactivated]
    exact h.once
  · rw [hinactivated]
    exact h.owed
  · intro id hid
    rw [hacks]
    rcases h.pending id hid with hack | ⟨p, hp, -⟩
    · exact .inl (List.mem_append_left _ hack)
    · rw [hheld] at hp
      cases hp
  · intro m' hm'
    have hphase : (if m.timeInForce = 0 then Phase.inserting m.orderToken ⟨m.orderBookId, m.side, g.orderIdSeq⟩
        else .idle) = .canceling m' := hm'
    split at hphase
    · cases hphase
    · cases hphase
  · exact ordered_snoc h.ordered nofun
  · intro id hid
    rw [hnext]
    have hold : s.Known id → 0 < id.toNat ∧ id.toNat < g.orderIdSeq.toNat + 1 := by
      intro hknown
      obtain ⟨hpos, hlt⟩ := h.known id hknown
      exact ⟨hpos, Nat.lt_succ_of_lt hlt⟩
    rcases hid with hid | hid | hid | ⟨p, hp, -⟩
    · obtain ⟨p, hp, rfl⟩ := List.mem_map.1 hid
      rcases hafter p hp with hp | ⟨hid, -⟩
      · exact hold (.inl (List.mem_map_of_mem hp))
      · rw [hid]
        exact ⟨h.started, Nat.lt_succ_self _⟩
    · exact hold (.inr (.inl hid))
    · rw [hinactivated] at hid
      exact hold (.inr (.inr (.inl hid)))
    · rw [hheld'] at hp
      cases hp
  · rw [hnext]
    exact Nat.succ_pos _

/-- The order starts to rest. -/
theorem Sound.work_inserting {s : Threads} (h : s.Sound) {token : OrderToken} {order : RestingOrder}
    (hphase : s.phase = .inserting token order) (hc : s.Careful .worker) : s.work.Sound := by
  have hheld : s.held = none := by rw [Threads.held, hphase]
  have hwaits : s.waiting = some (token, order.orderId) := by rw [Threads.waiting, hphase]
  have hfree := hc token order hphase
  obtain ⟨hlive, hnot⟩ := h.waiting _ hwaits
  have hwork : s.work = { s with gateway := s.gateway.rest token order, phase := .idle } := by rw [work, hphase]
  have hrests : ∀ p, s.work.Rests p ↔ p = (token, order.orderId) ∨ s.Rests p := by
    rintro ⟨t, id⟩
    rw [hwork, Rests, Rests, Gateway.rest]
    dsimp only
    by_cases ht : t = token
    · rw [ht, Function.update_self, hfree]
      simp [eq_comm]
    · rw [Function.update_of_ne ht]
      simp [ht]
  rw [hwork] at hrests ⊢
  refine ⟨?_, ?_, ?_, h.distinct, nofun, nofun, h.live, h.once, h.owed, ?_, nofun, h.ordered, ?_, h.started⟩
  · intro p hp
    rcases (hrests p).1 hp with rfl | hp
    · exact .inl hlive
    · rcases h.rests p hp with hp | hp
      · exact .inl hp
      · rw [hheld] at hp
        cases hp
  · intro p hp
    rcases h.lives p hp with hpending | hrest | hp
    · exact .inl hpending
    · exact .inr (.inl ((hrests p).2 (.inr hrest)))
    · rw [hwaits, Option.some.injEq] at hp
      exact .inr (.inl ((hrests p).2 (.inl hp.symm)))
  · intro p hp
    rcases (hrests p).1 hp with rfl | hp
    · exact ⟨hnot, (h.live _ hlive).1⟩
    · exact h.uncanceled p hp
  · intro id hid
    rcases h.pending id hid with hack | ⟨p, hp, -⟩
    · exact .inl hack
    · rw [hheld] at hp
      cases hp
  · rintro id (hid | hid | hid | ⟨p, hp, -⟩)
    · exact h.known id (.inl hid)
    · exact h.known id (.inr (.inl hid))
    · exact h.known id (.inr (.inr (.inl hid)))
    · cases hp

/-- The replacement that rests is acknowledged. -/
theorem Sound.work_replacing {s : Threads} (h : s.Sound) {m : OrderReplaced} (hphase : s.phase = .replacing m) :
    s.work.Sound := by
  have hheld : s.held = some (m.replacementOrderToken, m.orderId) := by rw [Threads.held, hphase]
  have hwaiting : s.waiting = none := by rw [Threads.waiting, hphase]
  have hwork : s.work = { s with phase := .idle }.send (.replaced m) := by rw [work, hphase]
  obtain ⟨hnew, hnot, hrest⟩ := h.held _ hheld
  have hacks : acks (s.wire ++ [.replaced m]) = acks s.wire ++ [m.orderId] := List.filterMap_append
  have hinactivated : inactivated (s.wire ++ [.replaced m]) = inactivated s.wire := inactivated_snoc rfl
  have hsplit : ∀ p, p ∈ told s.live (.replaced m) ↔ p ∈ s.live ∨ p = (m.replacementOrderToken, m.orderId) := by
    intro p
    rw [told, List.mem_append, List.mem_singleton]
  rw [hwork]
  refine ⟨?_, ?_, ?_, ?_, nofun, nofun, ?_, ?_, ?_, ?_, nofun, ordered_snoc h.ordered nofun, ?_, h.started⟩
  · intro p hp
    refine .inl ((hsplit p).2 ?_)
    rcases h.rests p hp with hp | hp
    · exact .inl hp
    · rw [hheld, Option.some.injEq] at hp
      exact .inr hp.symm
  · intro p hp
    rcases (hsplit p).1 hp with hp | rfl
    · rcases h.lives p hp with hpending | hp | hp
      · exact .inl hpending
      · exact .inr (.inl hp)
      · rw [hwaiting] at hp
        cases hp
    · rcases hrest with hpending | hrest
      · exact .inl hpending
      · exact .inr (.inl hrest)
  · intro p hp
    rw [send, hinactivated]
    exact h.uncanceled p hp
  · rw [send, told, List.map_append, List.map_singleton, List.nodup_append]
    refine ⟨h.distinct, List.nodup_singleton _, ?_⟩
    intro id hid id' hid'
    rw [List.mem_singleton.1 hid']
    rintro rfl
    exact hnew hid
  · intro p hp
    rw [send, hinactivated, hacks]
    rcases (hsplit p).1 hp with hp | rfl
    · obtain ⟨hno, hack⟩ := h.live p hp
      exact ⟨hno, List.mem_append_left _ hack⟩
    · exact ⟨hnot, List.mem_append_right _ List.mem_cons_self⟩
  · rw [send, hinactivated]
    exact h.once
  · rw [send, hinactivated]
    exact h.owed
  · intro id hid
    rw [send, hacks]
    rcases h.pending id hid with hack | ⟨p, hp, rfl⟩
    · exact .inl (List.mem_append_left _ hack)
    · rw [hheld, Option.some.injEq] at hp
      rw [← hp]
      exact .inl (List.mem_append_right _ List.mem_cons_self)
  · rintro id (hid | hid | hid | ⟨p, hp, -⟩)
    · obtain ⟨p, hp, rfl⟩ := List.mem_map.1 hid
      rcases (hsplit p).1 hp with hp | rfl
      · exact h.known _ (.inl (List.mem_map_of_mem hp))
      · exact h.known _ (.inr (.inr (.inr ⟨_, hheld, rfl⟩)))
    · exact h.known id (.inr (.inl hid))
    · rw [send, hinactivated] at hid
      exact h.known id (.inr (.inr (.inl hid)))
    · cases hp

theorem Sound.work {s : Threads} (h : s.Sound) (hp : s.Possible .worker) (hc : s.Careful .worker) : s.work.Sound := by
  cases hphase : s.phase with
  | idle =>
    have hwork : s.work = s := by rw [Threads.work, hphase]
    rw [hwork]
    exact h
  | rejecting m =>
    have hwork : s.work = { s with phase := .idle }.send (.rejected m) := by rw [Threads.work, hphase]
    have hheld : s.held = none := by rw [Threads.held, hphase]
    have hwaiting : s.waiting = none := by rw [Threads.waiting, hphase]
    rw [hwork]
    exact h.quiet rfl rfl rfl rfl rfl (acks_snoc rfl) (inactivated_snoc rfl) (ordered_snoc h.ordered nofun)
      ⟨hheld, rfl⟩ ⟨hwaiting, rfl⟩ nofun
  | accepting m => exact h.work_accepting hphase hp
  | inserting token order => exact h.work_inserting hphase hc
  | canceling m =>
    have hwork : s.work = { s with phase := .idle }.send (.canceled m) := by rw [Threads.work, hphase]
    have hheld : s.held = none := by rw [Threads.held, hphase]
    have hwaiting : s.waiting = none := by rw [Threads.waiting, hphase]
    obtain ⟨hreason, hdead, hack⟩ := h.canceling m hphase
    -- the order left the ledger with the block
    have hlive : told s.live (.canceled m) = s.live := by
      rw [told, List.filter_eq_self]
      intro p hp
      refine decide_eq_true ?_
      intro hid
      exact hdead (hid ▸ List.mem_map_of_mem hp)
    have hordered : Ordered (s.wire ++ [.canceled m]) := by
      refine ordered_snoc h.ordered ?_
      rintro _ ⟨⟩
      exact hack
    rw [hwork]
    exact h.quiet rfl rfl rfl hlive rfl (acks_snoc rfl) (inactivated_snoc (if_neg hreason)) hordered ⟨hheld, rfl⟩
      ⟨hwaiting, rfl⟩ nofun
  | replacing m => exact h.work_replacing hphase

/-- The orders that rest are told apart by their ids. -/
theorem Sound.rests_unique {s : Threads} (h : s.Sound) {p q : OrderToken × UInt64} (hp : s.Rests p) (hq : s.Rests q)
    (hid : p.2 = q.2) : p = q := by
  rcases h.rests p hp with hlive | hheld
  · rcases h.rests q hq with hlive' | hheld'
    · exact h.live_unique hlive hlive' hid
    · exact absurd (hid ▸ List.mem_map_of_mem hlive) (h.held q hheld').1
  · rcases h.rests q hq with hlive' | hheld'
    · exact absurd (hid ▸ List.mem_map_of_mem hlive') (h.held p hheld).1
    · rw [hheld, Option.some.injEq] at hheld'
      exact hheld'

/-- A call takes every order that lives, if none waits to be inserted. -/
theorem Sound.inactivate {s : Threads} (h : s.Sound) (hnone : s.pending = []) {clientFd : Int32}
    {snapshot : List (OrderToken × RestingOrder)} (hp : s.Possible (.inactivate clientFd snapshot))
    (hc : s.Careful (.inactivate clientFd snapshot)) : (s.inactivate clientFd snapshot).Sound := by
  have hcareful := hc hnone
  unfold Threads.inactivate
  dsimp only
  by_cases hfd : clientFd < 0
  · -- nobody is connected, and no order lives
    rw [if_pos hfd] at hcareful ⊢
    have hsame : { s with live := [], owed := s.owed ++ s.live.map Prod.snd } = s := by
      rw [hcareful, List.map_nil, List.append_nil, ← hcareful]
    rw [hsame]
    exact h
  · rw [if_neg hfd] at hcareful ⊢
    have hsnap := hp (Int32.not_lt.1 hfd)
    have hids : s.pendingIds = [] := by rw [pendingIds, hnone]; rfl
    have hwaiting : s.waiting = none := by
      unfold Threads.waiting
      split
      · rename_i token order hphase
        exact absurd hphase (hcareful token order)
      · rfl
    have hmet : ∀ p, s.Rests p → p.2 ∈ snapshot.map fun p => p.2.orderId := by
      rintro p ⟨order, hrest, hid⟩
      rw [← hid]
      exact List.mem_map_of_mem (f := fun p : OrderToken × RestingOrder => p.2.orderId) ((hsnap.mem p.1 order).2 hrest)
    have hrested : ∀ p ∈ snapshot, s.Rests (p.1, p.2.orderId) := fun p hp' => ⟨p.2, (hsnap.mem p.1 p.2).1 hp', rfl⟩
    have hnorest : ∀ (s' : Threads) p, s'.gateway.resting = (fun _ => none) → ¬ s'.Rests p := by
      rintro s' p hempty ⟨order, ho, -⟩
      rw [hempty] at ho
      cases ho
    refine ⟨?_, nofun, ?_, List.nodup_nil, ?_, ?_, nofun, ?_, ?_, ?_, ?_, h.ordered, ?_, h.started⟩
    · intro p hp'
      exact absurd hp' (hnorest _ p rfl)
    · intro p hp'
      exact absurd hp' (hnorest _ p rfl)
    · intro p hp'
      obtain ⟨-, hnot, hwhere⟩ := h.held p hp'
      refine ⟨List.not_mem_nil, hnot, .inl ?_⟩
      rcases hwhere with hpending | hrest
      · rw [hids] at hpending
        exact absurd hpending List.not_mem_nil
      · exact hmet p hrest
    · intro p hp'
      have hp' : s.waiting = some p := hp'
      rw [hwaiting] at hp'
      cases hp'
    · rw [pendingIds, List.nodup_append]
      refine ⟨?_, (List.nodup_append.1 h.once).2.1, ?_⟩
      · refine hsnap.nodup.map_on ?_
        intro p hp' q hq hid
        have hsame := h.rests_unique (hrested p hp') (hrested q hq) hid
        rw [Prod.mk.injEq] at hsame
        have hp' := (hsnap.mem p.1 p.2).1 hp'
        have hq := (hsnap.mem q.1 q.2).1 hq
        rw [hsame.1, hq, Option.some.injEq] at hp'
        exact Prod.ext hsame.1 hp'.symm
      · intro id hid id' hid' heq
        obtain ⟨p, hp', rfl⟩ := List.mem_map.1 hid
        exact (h.uncanceled _ (hrested p hp')).2 (heq ▸ hid')
    · intro id hid
      rcases List.mem_append.1 hid with hid | hid
      · rcases h.owed id hid with hpending | hdone
        · rw [hids] at hpending
          exact absurd hpending List.not_mem_nil
        · exact .inr hdone
      · obtain ⟨p, hp', rfl⟩ := List.mem_map.1 hid
        rcases h.lives p hp' with hpending | hrest | hp'
        · rw [hids] at hpending
          exact absurd hpending List.not_mem_nil
        · exact .inl (hmet p hrest)
        · rw [hwaiting] at hp'
          cases hp'
    · intro id hid
      obtain ⟨p, hp', rfl⟩ := List.mem_map.1 hid
      rcases h.rests _ (hrested p hp') with hlive | hheld
      · exact .inl (h.live _ hlive).2
      · exact .inr ⟨_, hheld, rfl⟩
    · intro m hm
      obtain ⟨hreason, -, hack⟩ := h.canceling m hm
      exact ⟨hreason, List.not_mem_nil, hack⟩
    · rintro id (hid | hid | hid | hid)
      · exact absurd hid List.not_mem_nil
      · obtain ⟨p, hp', rfl⟩ := List.mem_map.1 hid
        rcases h.rests _ (hrested p hp') with hlive | hheld
        · exact h.known _ (.inl (List.mem_map_of_mem (f := Prod.snd) hlive))
        · exact h.known _ (.inr (.inr (.inr ⟨_, hheld, rfl⟩)))
      · exact h.known id (.inr (.inr (.inl hid)))
      · exact h.known id (.inr (.inr (.inr hid)))

/-- The next order of the snapshot gets its OrderCanceled. -/
theorem Sound.emit {s : Threads} (h : s.Sound) (hc : s.Careful .emit) : (s.step .emit).Sound := by
  unfold step
  dsimp only
  cases hpending : s.pending with
  | nil => exact h
  | cons p rest =>
    obtain ⟨token, order⟩ := p
    have hids : s.pendingIds = order.orderId :: rest.map fun p => p.2.orderId := by rw [pendingIds, hpending]; rfl
    have hfirst : order.orderId ∈ s.pendingIds := by
      rw [hids]
      exact List.mem_cons_self
    have hinactivated : inactivated (s.wire ++ [(s.gateway.emitCanceled token order 4).1]) =
        inactivated s.wire ++ [order.orderId] := List.filterMap_append
    have hacks : acks (s.wire ++ [(s.gateway.emitCanceled token order 4).1]) = acks s.wire := acks_snoc rfl
    have hlive : ∀ p, p ∈ told s.live (s.gateway.emitCanceled token order 4).1 ↔ p ∈ s.live ∧ p.2 ≠ order.orderId := by
      intro p
      rw [Gateway.emitCanceled, told, List.mem_filter, decide_eq_true_iff]
    have hheld : ∀ p, s.held = some p → p.2 ≠ order.orderId := by
      intro p hp heq
      unfold Threads.held at hp
      split at hp
      · rename_i m hphase
        cases hp
        exact hc m (token, order) hphase (by rw [hpending]; rfl) heq.symm
      · cases hp
    have hleft : ∀ id, id ∈ s.pendingIds → id ≠ order.orderId → id ∈ rest.map fun p => p.2.orderId := by
      intro id hid hne
      rw [hids] at hid
      exact (List.mem_cons.1 hid).resolve_left hne
    have hadded : ∀ id, id ∉ inactivated s.wire → id ≠ order.orderId → id ∉ inactivated s.wire ++ [order.orderId] := by
      intro id hid hne hmem
      rcases List.mem_append.1 hmem with hmem | hmem
      · exact hid hmem
      · exact hne (List.mem_singleton.1 hmem)
    have hmore : ∀ id ∈ rest.map fun p : OrderToken × RestingOrder => p.2.orderId, id ∈ s.pendingIds := by
      intro id hid
      rw [hids]
      exact List.mem_cons_of_mem _ hid
    dsimp only [send]
    refine ⟨?_, ?_, ?_, ?_, ?_, ?_, ?_, ?_, ?_, ?_, ?_, ?_, ?_, h.started⟩
    · intro p hp
      rcases h.rests p hp with hp' | hp'
      · exact .inl ((hlive p).2 ⟨hp', fun heq => (h.uncanceled p hp).1 (heq ▸ hfirst)⟩)
      · exact .inr hp'
    · intro p hp
      obtain ⟨hp, hne⟩ := (hlive p).1 hp
      rcases h.lives p hp with hid | hrest | hp
      · exact .inl (hleft _ hid hne)
      · exact .inr (.inl hrest)
      · exact .inr (.inr hp)
    · intro p hp
      obtain ⟨hnot, hdone⟩ := h.uncanceled p hp
      refine ⟨fun hid => hnot (hmore _ hid), ?_⟩
      rw [hinactivated]
      exact hadded _ hdone fun heq => hnot (heq ▸ hfirst)
    · exact h.distinct.sublist (List.filter_sublist.map _)
    · intro p hp
      obtain ⟨hnew, hdone, hwhere⟩ := h.held p hp
      have hne := hheld p hp
      refine ⟨?_, ?_, hwhere.imp_left fun hid => hleft _ hid hne⟩
      · intro hid
        obtain ⟨q, hq, hid⟩ := List.mem_map.1 hid
        exact hnew (hid ▸ List.mem_map_of_mem ((hlive q).1 hq).1)
      · rw [hinactivated]
        exact hadded _ hdone hne
    · intro p hp
      obtain ⟨hp, hnot⟩ := h.waiting p hp
      exact ⟨(hlive p).2 ⟨hp, fun heq => hnot (heq ▸ hfirst)⟩, fun hid => hnot (hmore _ hid)⟩
    · intro p hp
      obtain ⟨hp, hne⟩ := (hlive p).1 hp
      obtain ⟨hdone, hack⟩ := h.live p hp
      rw [hinactivated, hacks]
      exact ⟨hadded _ hdone hne, hack⟩
    · have honce := h.once
      rw [hids, List.cons_append] at honce
      rw [hinactivated, ← List.append_assoc]
      exact (List.perm_append_singleton _ _).nodup_iff.2 honce
    · intro id hid
      rw [hinactivated]
      by_cases hne : id = order.orderId
      · rw [hne]
        exact .inr (List.mem_append_right _ List.mem_cons_self)
      · rcases h.owed id hid with hid | hdone
        · exact .inl (hleft id hid hne)
        · exact .inr (List.mem_append_left _ hdone)
    · intro id hid
      rw [hacks]
      exact h.pending id (hmore id hid)
    · intro m hm
      obtain ⟨hreason, hdead, hack⟩ := h.canceling m hm
      rw [hacks]
      refine ⟨hreason, ?_, hack⟩
      intro hid
      obtain ⟨q, hq, hid⟩ := List.mem_map.1 hid
      exact hdead (hid ▸ List.mem_map_of_mem ((hlive q).1 hq).1)
    · refine ordered_snoc h.ordered ?_
      rintro m ⟨⟩ -
      rcases h.pending _ hfirst with hack | ⟨p, hp, hid⟩
      · exact hack
      · exact absurd hid (hheld p hp)
    · rintro id (hid | hid | hid | hid)
      · obtain ⟨q, hq, rfl⟩ := List.mem_map.1 hid
        exact h.known _ (.inl (List.mem_map_of_mem ((hlive q).1 hq).1))
      · exact h.known id (.inr (.inl (hmore id hid)))
      · rw [hinactivated] at hid
        rcases List.mem_append.1 hid with hid | hid
        · exact h.known id (.inr (.inr (.inl hid)))
        · rw [List.mem_singleton.1 hid]
          exact h.known _ (.inr (.inl hfirst))
      · exact h.known id (.inr (.inr (.inr hid)))

theorem Sound.step {s : Threads} (h : s.Sound) {a : Act} (hp : s.Possible a) (hc : s.Careful a) : (s.step a).Sound := by
  cases a with
  | request r =>
    unfold Threads.step
    dsimp only
    split
    · rename_i hphase
      cases r with
      | enter m => exact h.take_enter hphase m
      | cancel m => exact h.take_cancel hphase m
      | replace m => exact h.take_replace hphase hp hc
    · exact h
  | worker => exact h.work hp hc
  | inactivate clientFd snapshot =>
    unfold Threads.step
    dsimp only
    split
    · rename_i hnone
      exact h.inactivate hnone hp hc
    · exact h
  | emit => exact h.emit hc

/-! ## Schedules -/

theorem Sound.init {g : Gateway} (hfirst : g.orderIdSeq = 1) (hresting : ∀ token, g.resting token = none) :
    Sound { gateway := g } := by
  have hnorest : ∀ p, ¬ Rests { gateway := g } p := by
    rintro p ⟨order, ho, -⟩
    rw [show _ = none from hresting p.1] at ho
    cases ho
  refine ⟨?_, nofun, ?_, List.nodup_nil, nofun, nofun, nofun, List.nodup_nil, nofun, nofun, nofun, ?_, ?_, ?_⟩
  · exact fun p hp => absurd hp (hnorest p)
  · exact fun p hp => absurd hp (hnorest p)
  · intro pre m post hsplit
    cases pre with
    | nil => cases hsplit
    | cons r pre => cases hsplit
  · rintro id (hid | hid | hid | ⟨p, hp, -⟩)
    · exact absurd hid List.not_mem_nil
    · exact absurd hid List.not_mem_nil
    · exact absurd hid List.not_mem_nil
    · cases hp
  · dsimp only
    rw [hfirst]
    decide

/-- In every state of a schedule whose turns all do no harm, a call has
canceled or will cancel each order it should have, and no order was canceled
before it was acknowledged. -/
theorem inactivation_complete {g : Gateway} (hfirst : g.orderIdSeq = 1) (hresting : ∀ token, g.resting token = none)
    (acts : List Act) (hp : AllAlong step Possible { gateway := g } acts)
    (hc : AllAlong step Careful { gateway := g } acts) (pre post : List Act) (hacts : acts = pre ++ post) :
    Complete (run step { gateway := g } pre) := by
  subst hacts
  rw [allAlong_append] at hp hc
  have hkeep : ∀ (s : Threads) a, s.Sound → s.Possible a ∧ s.Careful a → (s.step a).Sound :=
    fun s a h hboth => h.step hboth.1 hboth.2
  have hboth : AllAlong step (fun s a => s.Possible a ∧ s.Careful a) { gateway := g } pre := by
    refine allAlong_of_at ?_
    intro before a after hbefore
    exact ⟨allAlong_iff_at.1 hp.1 before a after hbefore, allAlong_iff_at.1 hc.1 before a after hbefore⟩
  exact (run_inv Sound hkeep (Sound.init hfirst hresting) hboth).complete

def replacementRest : OrderToken × RestingOrder := (OrderToken.ofText (ascii "D2"), ⟨70616, Side.buy.toWire, 2⟩)

/-- A day order is inserted before the call. -/
def insertedFirst : List Act :=
  [.request (.enter TradingDay.dayOrder), .worker, .worker, .inactivate 5 [TradingDay.dayRest], .emit]

theorem inactivation_complete_insertedFirst :
    Complete (run step { gateway := TradingDay.newGateway } insertedFirst) := by
  have hnone : Gateway.Enumerates (fun _ => none) [] := ⟨List.nodup_nil, by simp⟩
  have hfirst : (1 : UInt64).toNat + 1 < 2 ^ 64 := by decide
  have hsecond : (2 : UInt64).toNat + 1 < 2 ^ 64 := by decide
  have hp : AllAlong step Possible { gateway := TradingDay.newGateway } insertedFirst :=
    ⟨hfirst, hfirst, hsecond, fun _ => TradingDay.Countable.insert hnone .., trivial, trivial⟩
  refine inactivation_complete rfl (fun _ => rfl) insertedFirst hp ⟨trivial, nofun, ?_, ?_, ?_, trivial⟩ insertedFirst []
    (List.append_nil _).symm
  · rintro token order ⟨⟩
    rfl
  · intro _
    exact fun token order hphase => by cases hphase
  · rintro m p ⟨⟩

/-- The call comes between the OrderAccepted and the insertion. -/
def calledBetween : List Act := [.request (.enter TradingDay.dayOrder), .worker, .inactivate 5 [], .worker]

/-- The snapshot is taken between the insertion of a replacement and its
OrderReplaced, and sent at once. -/
def canceledEarly : List Act :=
  [.request (.enter TradingDay.dayOrder), .worker, .worker,
    .request (.replace (TradingDay.replaceOf (ascii "D1") (ascii "D2"))), .inactivate 5 [replacementRest], .emit, .worker]

/-- An order the client knows of is missed, and another is canceled first. -/
theorem acknowledged_then_missed :
    (AllAlong step Possible { gateway := TradingDay.newGateway } calledBetween ∧
      ¬ Complete (run step { gateway := TradingDay.newGateway } calledBetween)) ∧
    AllAlong step Possible { gateway := TradingDay.newGateway } canceledEarly ∧
      ¬ Complete (run step { gateway := TradingDay.newGateway } canceledEarly) := by
  have hnone : Gateway.Enumerates (fun _ => none) [] := ⟨List.nodup_nil, by simp⟩
  have hone : (1 : UInt64).toNat + 1 < 2 ^ 64 := by decide
  have htwo : (2 : UInt64).toNat + 1 < 2 ^ 64 := by decide
  have hthree : (3 : UInt64).toNat + 1 < 2 ^ 64 := by decide
  refine ⟨⟨⟨hone, hone, fun _ => hnone, htwo, trivial⟩, ?_⟩, ⟨hone, hone, htwo, htwo, ?_, trivial, hthree, trivial⟩, ?_⟩
  · intro h
    have howed : (1 : UInt64) ∈ (run step { gateway := TradingDay.newGateway } calledBetween).owed := by decide
    exact absurd (h.canceled 1 howed) (by decide)
  · intro _
    have hold := TradingDay.Countable.insert hnone TradingDay.dayRest.1 TradingDay.dayRest.2
    exact TradingDay.Countable.insert (TradingDay.Countable.erase hold TradingDay.dayRest.1) ..
  · intro h
    have hack := h.ordered [_] _ [_] rfl (by decide)
    exact absurd hack (by decide)

end Threads

end BistColo.Mock
