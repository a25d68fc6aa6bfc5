import BistColo.Mock.Acknowledged
import BistColo.Mock.LinkOrders
/-!
# The mock gateway over a whole day

The thread that `OuchMockGateway::start` and `start_on_fd` spawn: `accept_loop`
takes one connection after the other, `run_loop` serves it, and the runner calls
in between to stop it, to change what logins are checked with and to inactivate
what rests. One gateway serves all connections, so order ids go on and a token is
accepted once, whoever sends it (`assigns_in_order`); each connection is answered
as if its bytes had come at once (`serves_all`); and a stop lets one more packet
through at most (`stopped_answers_once`).
-/

open StreamKit

namespace BistColo.Mock

open Soup Ouch

/-! ## The thread -/

/-- Where a turn of the main loop is: before `running_` is read, in `poll`, or at
the heartbeat timer. -/
inductive Turn | top | polling | timer
deriving DecidableEq

inductive Stage
  | accepting
  | serving (turn : Turn)
  | returned
  /-- the `std::length_error` of a payload's vector has ended the process -/
  | aborted
deriving DecidableEq

/-- How the thread was spawned: by `start`, or by `start_on_fd`. -/
inductive Mode
  | listening (acceptOne : Bool)
  | onFd

structure AcceptLoop where
  running : Bool := true
  acceptOne : Bool := true
  stage : Stage
  /-- the gateway, and the connection that is being served -/
  worker : Worker
  clientFd : Int32 := -1
  /-- what has arrived on that connection -/
  stream : Bytes := []
  /-- the connections before it: what arrived, and what was written -/
  past : List (Bytes × List Packet) := []

inductive ThreadEvent
  | accept (fd : Int32)
  | acceptFails
  | arrive (bytes : Bytes)
  /-- the main loop reads `running_` -/
  | check
  /-- `poll`, and a packet if there is one -/
  | read
  | timer (due : Bool)
  /-- the peer closes -/
  | hangUp
deriving DecidableEq

/-- What the runner calls, between the steps of the thread. -/
inductive OperatorCall
  | stop
  | setAcceptedPassword (password : Bytes)
  | armDuplicateLoginReject
  | inactivateAllResting (snapshot : List (OrderToken × RestingOrder))
deriving DecidableEq

inductive AcceptEvent
  | thread (e : ThreadEvent)
  | call (c : OperatorCall)
deriving DecidableEq

/-- The vector for the payload of the next packet cannot be made. -/
def overlong (inbox : Bytes) : Bool :=
  match readPacket inbox with
  | some (r, none) => maxVectorSize < r.size.toNat
  | _ => false

namespace AcceptLoop

def start (wallNs : Clock) : Mode → AcceptLoop
  | .listening acceptOne =>
    { acceptOne := acceptOne, stage := .accepting, worker := { gateway := { wallNs := wallNs }, phase := .closed } }
  | .onFd => { stage := .serving .top, worker := { gateway := { wallNs := wallNs } } }

/-- The connection is closed, and `accept_loop` goes on or returns. -/
def leave (l : AcceptLoop) : AcceptLoop :=
  { l with
    stage := if l.running ∧ l.acceptOne = false then .accepting else .returned
    worker := { l.worker with phase := .closed, inbox := [], sent := [] }
    clientFd := -1
    stream := []
    past := l.past ++ [(l.stream, l.worker.sent)] }

/-- The thread waits for a packet: for the first one, or in `poll`. -/
def Reads (l : AcceptLoop) : Prop := (l.stage = .serving .top ∧ l.worker.phase = .greeting) ∨ l.stage = .serving .polling

instance (l : AcceptLoop) : Decidable l.Reads := instDecidableOr

/-- A complete packet is taken. -/
def readNext (l : AcceptLoop) : AcceptLoop :=
  let w := l.worker.step .turn
  if w.phase = .closed then { l with worker := w }.leave
  else { l with worker := w, stage := .serving (if l.worker.phase = .greeting then .top else .timer) }

def thread (l : AcceptLoop) : ThreadEvent → AcceptLoop
  | .accept fd =>
    if l.stage = .accepting then
      { l with stage := .serving .top, worker := { gateway := l.worker.gateway, desk := l.worker.desk }, clientFd := fd }
    else l
  | .acceptFails => if l.stage = .accepting then { l with stage := .returned } else l
  | .arrive bytes =>
    match l.stage with
    | .serving _ => { l with worker := l.worker.step (.arrive bytes), stream := l.stream ++ bytes }
    | _ => l
  | .check =>
    if l.stage = .serving .top ∧ l.worker.phase ≠ .greeting then
      if l.running then { l with stage := .serving .polling } else l.leave
    else l
  | .read =>
    if l.Reads then
      if overlong l.worker.inbox then { l with stage := .aborted }
      else if (nextPacket l.worker.inbox).isSome then l.readNext
      -- nothing within 200 ms; a part of a packet is waited for
      else if l.stage = .serving .polling ∧ l.worker.inbox = [] then { l with stage := .serving .timer }
      else l
    else l
  | .timer due =>
    if l.stage = .serving .timer then
      { l with stage := .serving .top, worker := if due then l.worker.step .heartbeat else l.worker }
    else l
  | .hangUp => if l.Reads ∧ overlong l.worker.inbox = false ∧ nextPacket l.worker.inbox = none then l.leave else l

/-- A call as one step. What two threads that write packets at a time do to each
other is in `Mock.Writers`. -/
def call (l : AcceptLoop) : OperatorCall → AcceptLoop
  | .stop => { l with running := false }
  | .setAcceptedPassword password =>
    { l with worker := { l.worker with desk := { l.worker.desk with acceptedPassword := password } } }
  | .armDuplicateLoginReject => { l with worker := { l.worker with desk := { l.worker.desk with armDuplicateReject := true } } }
  | .inactivateAllResting snapshot =>
    let r := l.worker.gateway.inactivateAllResting l.clientFd snapshot
    { l with worker := { l.worker with gateway := r.gateway, sent := l.worker.sent ++ r.replies.map Reply.packet } }

def step (l : AcceptLoop) : AcceptEvent → AcceptLoop
  | .thread e => l.thread e
  | .call c => l.call c

/-- Everything written so far, on all connections. -/
def written (l : AcceptLoop) : List Packet := l.past.flatMap Prod.snd ++ l.worker.sent

end AcceptLoop

/-! ## Order ids and tokens -/

/-- The order id that a message assigns. -/
def assignedId (x : ServerMsg × Bytes) : Option UInt64 :=
  match x.1 with
  | .orderAccepted => some (OrderAccepted.read x.2).orderId
  | .orderReplaced => some (OrderReplaced.read x.2).orderId
  | _ => none

/-- The token that a message accepts an order under. -/
def acceptedToken (x : ServerMsg × Bytes) : Option OrderToken :=
  match x.1 with
  | .orderAccepted => some (OrderAccepted.read x.2).orderToken
  | _ => none

/-- The first ids that a gateway assigns. -/
def firstIds (n : Nat) : List UInt64 := (List.range n).map fun i => UInt64.ofNat (i + 1)

theorem firstIds_succ (n : Nat) : firstIds (n + 1) = firstIds n ++ [UInt64.ofNat (n + 1)] := by
  rw [firstIds, List.range_succ, List.map_append]
  rfl

namespace Reply

theorem told_accepted (m : OrderAccepted) :
    assignedId (accepted m).told = some m.orderId ∧ acceptedToken (accepted m).told = some m.orderToken := by
  have hread : OrderAccepted.read m.bytes = m := (OrderAccepted.format.roundTrips.1 m).2
  constructor
  · change some (OrderAccepted.read m.bytes).orderId = _
    rw [hread]
  · change some (OrderAccepted.read m.bytes).orderToken = _
    rw [hread]

theorem assignedId_replaced (m : OrderReplaced) : assignedId (replaced m).told = some m.orderId := by
  have hread : OrderReplaced.read m.bytes = m := (OrderReplaced.format.roundTrips.1 m).2
  change some (OrderReplaced.read m.bytes).orderId = _
  rw [hread]

end Reply

/-- What a step of a gateway, or some of them, tells: ids from the counter, and
tokens that it has not seen. -/
structure Tells (g g' : Gateway) (new : List (ServerMsg × Bytes)) : Prop where
  ids : (new.filterMap assignedId = [] ∧ g'.orderIdSeq = g.orderIdSeq) ∨
    (new.filterMap assignedId = [g.orderIdSeq] ∧ g'.orderIdSeq = g.orderIdSeq + 1)
  tokens : new.filterMap acceptedToken = [] ∨
    ∃ token, new.filterMap acceptedToken = [token] ∧ token ∉ g.seenTokens ∧ token ∈ g'.seenTokens
  seen : ∀ token ∈ g.seenTokens, token ∈ g'.seenTokens

namespace Tells

variable {g g' : Gateway}

theorem nothing (g : Gateway) : Tells g g [] := ⟨.inl ⟨rfl, rfl⟩, .inl rfl, fun _ h => h⟩

/-- Answers that neither assign an id nor accept a token. -/
theorem of_plain {new : List (ServerMsg × Bytes)} (hnew : ∀ x ∈ new, assignedId x = none ∧ acceptedToken x = none)
    (hid : g'.orderIdSeq = g.orderIdSeq) (hseen : ∀ token ∈ g.seenTokens, token ∈ g'.seenTokens) : Tells g g' new where
  ids := .inl ⟨List.filterMap_eq_nil_iff.2 fun x hx => (hnew x hx).1, hid⟩
  tokens := .inl (List.filterMap_eq_nil_iff.2 fun x hx => (hnew x hx).2)
  seen := hseen

end Tells

namespace Gateway

theorem enterOrder_tells (g : Gateway) (eo : EnterOrder) : Tells g (g.enterOrder eo).2 ((g.enterOrder eo).1.map Reply.told) := by
  have hseen : ∀ token ∈ g.seenTokens, token ∈ (g.enterOrder eo).2.seenTokens :=
    (Served.handle_seenTokens g (.enter eo)).1
  rcases g.enterOrder_cases eo with ⟨-, ⟨m, hm⟩, -, hid⟩ | ⟨hnew, -, ⟨now, hm⟩, -, hid⟩
  · rw [hm]
    exact .of_plain (List.forall_mem_cons.2 ⟨⟨rfl, rfl⟩, List.forall_mem_nil _⟩) hid hseen
  · obtain ⟨hassigned, htoken⟩ := Reply.told_accepted (acceptedMessage eo g.orderIdSeq now)
    rw [hm]
    refine ⟨.inr ⟨List.filterMap_cons_some hassigned, hid⟩, .inr ⟨eo.orderToken, List.filterMap_cons_some htoken, hnew, ?_⟩,
      hseen⟩
    exact (Served.handle_seenTokens g (.enter eo)).2 eo rfl

theorem quoteEntries_plain (g : Gateway) (token : OrderToken) (es : List QuoteEntry) :
    (∀ r ∈ (g.quoteEntries token es).1, assignedId r.told = none ∧ acceptedToken r.told = none) ∧
      (g.quoteEntries token es).2.orderIdSeq = g.orderIdSeq := by
  induction es generalizing g with
  | nil => exact ⟨List.forall_mem_nil _, rfl⟩
  | cons e es ih =>
    have hentry : (∀ r ∈ (g.quoteEntry token e).1, assignedId r.told = none ∧ acceptedToken r.told = none) ∧
        (g.quoteEntry token e).2.orderIdSeq = g.orderIdSeq := by
      unfold quoteEntry
      split
      · exact ⟨List.forall_mem_cons.2 ⟨⟨rfl, rfl⟩, List.forall_mem_nil _⟩, rfl⟩
      · exact ⟨List.forall_mem_cons.2 ⟨⟨rfl, rfl⟩, List.forall_mem_cons.2 ⟨⟨rfl, rfl⟩, List.forall_mem_nil _⟩⟩, rfl⟩
    obtain ⟨hrest, hid⟩ := ih (g.quoteEntry token e).2
    exact ⟨List.forall_mem_append.2 ⟨hentry.1, hrest⟩, hid.trans hentry.2⟩

theorem handlePayload_tells (g : Gateway) (payload : Bytes) :
    Tells g (g.handlePayload payload).2 ((g.handlePayload payload).1.map Reply.told) := by
  unfold handlePayload
  split
  · exact .nothing g
  · split
    · split
      · exact .nothing g
      · exact g.enterOrder_tells _
    · split
      · split
        · exact .nothing g
        · rename_i hsize
          obtain ⟨⟨now, hm⟩, -, hid⟩ := g.cancelOrder_spec (CancelOrder.read payload)
          rw [hm]
          refine .of_plain (List.forall_mem_cons.2 ⟨⟨rfl, rfl⟩, List.forall_mem_nil _⟩) hid ?_
          rw [cancelOrder_seen]
          exact fun _ h => h
      · split
        · split
          · exact .nothing g
          · exact .of_plain (List.forall_mem_cons.2 ⟨⟨rfl, rfl⟩, List.forall_mem_nil _⟩) rfl fun _ h => h
        · split
          · split
            · exact .nothing g
            · obtain ⟨⟨now, hm⟩, -, hid⟩ := g.replaceOrder_spec (ReplaceOrder.read payload)
              rw [hm]
              refine ⟨.inr ⟨List.filterMap_cons_some (Reply.assignedId_replaced _), hid⟩, .inl rfl, ?_⟩
              rw [replaceOrder_seen]
              exact fun _ h => h
          · split
            · split
              · exact .nothing g
              · obtain ⟨hplain, hid⟩ := g.quoteEntries_plain (readMassQuote payload).1.orderToken (readMassQuote payload).2
                refine .of_plain ?_ hid ?_
                · intro x hx
                  obtain ⟨r, hr, rfl⟩ := List.mem_map.1 hx
                  exact hplain r hr
                · intro token htoken
                  rw [massQuote, quoteEntries_seen]
                  exact htoken
            · exact .nothing g

theorem inactivateAllResting_replies (g : Gateway) (clientFd : Int32) (snapshot : List (OrderToken × RestingOrder)) :
    (∀ r ∈ (g.inactivateAllResting clientFd snapshot).replies, ∃ m, r = .canceled m ∧ m.messageType = MsgType.orderCanceled) ∧
      (g.inactivateAllResting clientFd snapshot).gateway.orderIdSeq = g.orderIdSeq ∧
      (g.inactivateAllResting clientFd snapshot).gateway.seenTokens = g.seenTokens := by
  have hemits : ∀ (g : Gateway) (snapshot : List (OrderToken × RestingOrder)),
      ∀ r ∈ (g.emitInactivated snapshot).1, ∃ m, r = .canceled m ∧ m.messageType = MsgType.orderCanceled := by
    intro g snapshot
    induction snapshot generalizing g with
    | nil => exact List.forall_mem_nil _
    | cons p snapshot ih => exact List.forall_mem_cons.2 ⟨⟨_, rfl, rfl⟩, ih _⟩
  unfold inactivateAllResting
  split
  · exact ⟨List.forall_mem_nil _, rfl, rfl⟩
  · obtain ⟨-, -, hid, hseen⟩ := emitInactivated_spec { g with resting := fun _ => none } snapshot
    exact ⟨hemits _ _, hid, hseen⟩

end Gateway

namespace AcceptLoop

/-! ## One step -/

theorem take_tells (w : Worker) (r : PayloadRead) :
    ∃ new, Worker.told (w.take r).sent = Worker.told w.sent ++ new ∧ Tells w.gateway (w.take r).gateway new := by
  have hnothing : ∃ new, Worker.told w.sent = Worker.told w.sent ++ new ∧ Tells w.gateway w.gateway new :=
    ⟨[], (List.append_nil _).symm, .nothing _⟩
  unfold Worker.take
  split
  · dsimp only
    rw [Worker.told_append, Worker.told_greet]
    exact ⟨[], rfl, .nothing _⟩
  · split
    · dsimp only
      rw [Worker.told_append]
      exact ⟨[], rfl, .nothing _⟩
    · split
      · dsimp only
        rw [Worker.told_append, Worker.told_replies (w.gateway.handlePayload_wellTyped _)]
        exact ⟨_, rfl, w.gateway.handlePayload_tells _⟩
      · exact hnothing
  · exact hnothing

theorem turn_tells (w : Worker) :
    ∃ new, Worker.told (w.step .turn).sent = Worker.told w.sent ++ new ∧ Tells w.gateway (w.step .turn).gateway new := by
  have hnothing : ∃ new, Worker.told w.sent = Worker.told w.sent ++ new ∧ Tells w.gateway w.gateway new :=
    ⟨[], (List.append_nil _).symm, .nothing _⟩
  rcases w.turn_cases with ⟨-, hstep⟩ | ⟨r, rest, -, -, hstep⟩
  · rw [hstep]
    exact hnothing
  · rw [hstep]
    exact take_tells _ _

theorem told_heartbeat (w : Worker) : Worker.told (w.step .heartbeat).sent = Worker.told w.sent ∧
    (w.step .heartbeat).gateway = w.gateway := by
  rcases w.heartbeat_cases with ⟨-, hstep⟩ | ⟨-, hstep⟩
  · rw [hstep]
    exact ⟨rfl, rfl⟩
  · rw [hstep, Worker.told_append]
    exact ⟨List.append_nil _, rfl⟩

/-- What has been told on all connections. -/
def told (l : AcceptLoop) : List (ServerMsg × Bytes) := Worker.told l.written

theorem told_eq (l : AcceptLoop) : l.told = Worker.told (l.past.flatMap Prod.snd) ++ Worker.told l.worker.sent :=
  Worker.told_append _ _

theorem told_leave (l : AcceptLoop) : l.leave.told = l.told := by
  rw [told, told]
  congr 1
  change (l.past ++ [(l.stream, l.worker.sent)]).flatMap Prod.snd ++ [] = l.past.flatMap Prod.snd ++ l.worker.sent
  rw [List.append_nil, List.flatMap_append, List.flatMap_singleton]

/-- While no connection is served, nothing is on it. -/
def Sane (l : AcceptLoop) : Prop :=
  l.stage = .accepting ∨ l.stage = .returned → l.worker.sent = [] ∧ l.clientFd = -1

theorem sane_leave (l : AcceptLoop) : l.leave.Sane := fun _ => ⟨rfl, rfl⟩

theorem sane_serving {l : AcceptLoop} {turn : Turn} (h : l.stage = .serving turn) : l.Sane := by
  rw [Sane, h]
  rintro (h | h)
  · nomatch h
  · nomatch h

theorem sane_readNext (l : AcceptLoop) : l.readNext.Sane := by
  unfold readNext
  dsimp only
  split
  · exact sane_leave _
  · exact sane_serving rfl

theorem Sane.step {l : AcceptLoop} (h : l.Sane) (e : AcceptEvent) : (l.step e).Sane := by
  cases e with
  | thread e =>
    change (l.thread e).Sane
    cases e with
    | accept fd =>
      unfold thread
      dsimp only
      split
      · exact sane_serving rfl
      · exact h
    | acceptFails =>
      unfold thread
      dsimp only
      split
      · rename_i hstage
        exact fun _ => h (.inl hstage)
      · exact h
    | arrive bytes =>
      unfold thread
      dsimp only
      split
      · rename_i hstage
        exact sane_serving hstage
      · exact h
    | check =>
      unfold thread
      dsimp only
      split
      · split
        · exact sane_serving rfl
        · exact sane_leave _
      · exact h
    | read =>
      unfold thread
      dsimp only
      split
      · split
        · rintro (h | h)
          · nomatch h
          · nomatch h
        · split
          · exact sane_readNext _
          · split
            · exact sane_serving rfl
            · exact h
      · exact h
    | timer due =>
      unfold thread
      dsimp only
      split
      · exact sane_serving rfl
      · exact h
    | hangUp =>
      unfold thread
      dsimp only
      split
      · exact sane_leave _
      · exact h
  | call c =>
    cases c with
    | stop => exact h
    | setAcceptedPassword password => exact h
    | armDuplicateLoginReject => exact h
    | inactivateAllResting snapshot =>
      intro hstage
      obtain ⟨hsent, hfd⟩ := h hstage
      refine ⟨?_, hfd⟩
      change l.worker.sent ++ _ = []
      rw [hsent, hfd]
      rfl

theorem Sane.thread {l : AcceptLoop} (h : l.Sane) (e : ThreadEvent) : (l.thread e).Sane := h.step (.thread e)

theorem told_readNext (l : AcceptLoop) :
    ∃ new, l.readNext.told = l.told ++ new ∧ Tells l.worker.gateway l.readNext.worker.gateway new := by
  obtain ⟨new, hnew, htells⟩ := turn_tells l.worker
  refine ⟨new, ?_, ?_⟩
  · rw [told_eq l, List.append_assoc, ← hnew]
    unfold readNext
    dsimp only
    split
    · rw [told_leave, told_eq]
    · rw [told_eq]
  · unfold readNext
    dsimp only
    split
    · exact htells
    · exact htells

/-- What one step tells, on whichever connection. -/
theorem step_tells {l : AcceptLoop} (h : l.Sane) (e : AcceptEvent) :
    ∃ new, (l.step e).told = l.told ++ new ∧ Tells l.worker.gateway (l.step e).worker.gateway new := by
  have hnothing : ∀ l' : AcceptLoop, l'.told = l.told → l'.worker.gateway = l.worker.gateway →
      ∃ new, l'.told = l.told ++ new ∧ Tells l.worker.gateway l'.worker.gateway new := by
    intro l' htold hgateway
    rw [hgateway]
    exact ⟨[], by rw [htold, List.append_nil], .nothing _⟩
  cases e with
  | thread e =>
    change ∃ new, (l.thread e).told = l.told ++ new ∧ Tells l.worker.gateway (l.thread e).worker.gateway new
    cases e with
    | accept fd =>
      unfold thread
      dsimp only
      split
      · rename_i hstage
        refine hnothing _ ?_ rfl
        rw [told_eq, told_eq, (h (.inl hstage)).1]
      · exact hnothing l rfl rfl
    | acceptFails =>
      unfold thread
      dsimp only
      split
      · exact hnothing _ rfl rfl
      · exact hnothing l rfl rfl
    | arrive bytes =>
      unfold thread
      dsimp only
      split
      · exact hnothing _ rfl rfl
      · exact hnothing l rfl rfl
    | check =>
      unfold thread
      dsimp only
      split
      · split
        · exact hnothing _ rfl rfl
        · exact hnothing _ (told_leave l) rfl
      · exact hnothing l rfl rfl
    | read =>
      unfold thread
      dsimp only
      split
      · split
        · exact hnothing _ rfl rfl
        · split
          · exact told_readNext l
          · split
            · exact hnothing _ rfl rfl
            · exact hnothing l rfl rfl
      · exact hnothing l rfl rfl
    | timer due =>
      unfold thread
      dsimp only
      split
      · cases due with
        | false => exact hnothing _ rfl rfl
        | true =>
          obtain ⟨hsent, hgateway⟩ := told_heartbeat l.worker
          refine hnothing _ ?_ hgateway
          rw [told_eq, told_eq]
          exact congrArg _ hsent
      · exact hnothing l rfl rfl
    | hangUp =>
      unfold thread
      dsimp only
      split
      · exact hnothing _ (told_leave l) rfl
      · exact hnothing l rfl rfl
  | call c =>
    cases c with
    | stop => exact hnothing _ rfl rfl
    | setAcceptedPassword password => exact hnothing _ rfl rfl
    | armDuplicateLoginReject => exact hnothing _ rfl rfl
    | inactivateAllResting snapshot =>
      obtain ⟨hreplies, hid, hseen⟩ := l.worker.gateway.inactivateAllResting_replies l.clientFd snapshot
      have htyped : ∀ r ∈ (l.worker.gateway.inactivateAllResting l.clientFd snapshot).replies, r.WellTyped := by
        intro r hr
        obtain ⟨m, rfl, hm⟩ := hreplies r hr
        exact hm
      refine ⟨(l.worker.gateway.inactivateAllResting l.clientFd snapshot).replies.map Reply.told, ?_, ?_⟩
      · rw [told_eq, told_eq, List.append_assoc]
        congr 1
        exact (Worker.told_append _ _).trans (congrArg _ (Worker.told_replies htyped))
      · refine .of_plain ?_ hid fun token htoken => by rw [← hseen] at htoken; exact htoken
        intro x hx
        obtain ⟨r, hr, rfl⟩ := List.mem_map.1 hx
        obtain ⟨m, rfl, -⟩ := hreplies r hr
        exact ⟨rfl, rfl⟩

/-! ## Runs -/

/-- The ids assigned so far are the first ones, and the gateway knows the tokens it accepted. -/
structure Booked (l : AcceptLoop) : Prop where
  sane : l.Sane
  ids : l.told.filterMap assignedId = firstIds (l.told.filterMap assignedId).length
  next : l.worker.gateway.orderIdSeq = UInt64.ofNat ((l.told.filterMap assignedId).length + 1)
  tokens : (l.told.filterMap acceptedToken).Nodup
  seen : ∀ token ∈ l.told.filterMap acceptedToken, token ∈ l.worker.gateway.seenTokens

theorem Booked.step {l : AcceptLoop} (h : l.Booked) (e : AcceptEvent) : (l.step e).Booked := by
  obtain ⟨new, htold, htells⟩ := step_tells h.sane e
  refine ⟨h.sane.step e, ?_, ?_, ?_, ?_⟩
  · rw [htold, List.filterMap_append]
    rcases htells.ids with ⟨hnone, -⟩ | ⟨hone, -⟩
    · rw [hnone, List.append_nil]
      exact h.ids
    · rw [hone, List.length_append, List.length_singleton, firstIds_succ, ← h.ids, h.next]
  · rw [htold, List.filterMap_append]
    rcases htells.ids with ⟨hnone, hid⟩ | ⟨hone, hid⟩
    · rw [hnone, List.append_nil, hid]
      exact h.next
    · rw [hone, List.length_append, List.length_singleton, hid, h.next]
      exact (UInt64.ofNat_add _ 1).symm
  · rw [htold, List.filterMap_append]
    rcases htells.tokens with hnone | ⟨token, hone, hnew, -⟩
    · rw [hnone, List.append_nil]
      exact h.tokens
    · rw [hone, List.nodup_append]
      refine ⟨h.tokens, List.nodup_singleton _, ?_⟩
      rintro token' htoken' _ hmem rfl
      rw [List.mem_singleton.1 hmem] at htoken'
      exact hnew (h.seen token htoken')
  · rw [htold, List.filterMap_append]
    intro token htoken
    rcases List.mem_append.1 htoken with hold | hmem
    · exact htells.seen token (h.seen token hold)
    · rcases htells.tokens with hnone | ⟨token', hone, -, hsees⟩
      · rw [hnone] at hmem
        exact absurd hmem List.not_mem_nil
      · rw [hone] at hmem
        rw [List.mem_singleton.1 hmem]
        exact hsees

theorem booked_start (wallNs : Clock) (mode : Mode) : (start wallNs mode).Booked := by
  have htold : (start wallNs mode).told = [] := by cases mode <;> rfl
  refine ⟨?_, ?_, ?_, ?_, ?_⟩
  · cases mode with
    | listening acceptOne => exact fun _ => ⟨rfl, rfl⟩
    | onFd => exact sane_serving rfl
  · rw [htold]
    rfl
  · rw [htold]
    cases mode <;> rfl
  · rw [htold]
    exact List.nodup_nil
  · rw [htold]
    exact fun token htoken => absurd htoken List.not_mem_nil

/-- Over all connections, and whatever the runner calls between the steps of the
thread: the gateway assigns the order ids 1, 2, 3 and so on in the order of its
answers, and accepts no order under a token of another one. -/
theorem assigns_in_order (wallNs : Clock) (mode : Mode) (events : List AcceptEvent) :
    let told := (StreamKit.run step (start wallNs mode) events).told
    told.filterMap assignedId = firstIds (told.filterMap assignedId).length ∧ (told.filterMap acceptedToken).Nodup := by
  have hbooked : (StreamKit.run step (start wallNs mode) events).Booked :=
    run_inv_all Booked (fun _ e h => h.step e) (booked_start wallNs mode)
  exact ⟨hbooked.ids, hbooked.tokens⟩

/-! ## Stopping -/

theorem take_told (w : Worker) (r : PayloadRead) :
    Worker.told (w.take r).sent = Worker.told w.sent ∨
      Worker.told (w.take r).sent = Worker.told w.sent ++ (w.gateway.handlePayload (r.bytes.getD [])).1.map Reply.told := by
  unfold Worker.take
  split
  · dsimp only
    rw [Worker.told_append, Worker.told_greet]
    exact .inl (List.append_nil _)
  · split
    · dsimp only
      rw [Worker.told_append]
      exact .inl (List.append_nil _)
    · split
      · dsimp only
        rw [Worker.told_append, Worker.told_replies (w.gateway.handlePayload_wellTyped _)]
        exact .inr rfl
      · exact .inl rfl
  · exact .inl rfl

theorem turn_told {w : Worker} {r : PayloadRead} {rest : Bytes} (hnext : nextPacket w.inbox = some (r, rest)) :
    Worker.told (w.step .turn).sent = Worker.told w.sent ∨
      Worker.told (w.step .turn).sent =
        Worker.told w.sent ++ (w.gateway.handlePayload (r.bytes.getD [])).1.map Reply.told := by
  by_cases hclosed : w.phase = .closed
  · have hstep : w.step .turn = w := if_pos hclosed
    rw [hstep]
    exact .inl rfl
  · rw [Worker.turn_some hclosed hnext]
    exact take_told { w with inbox := rest } r

/-- The first packet of a connection is answered by the handshake. -/
theorem turn_greeting {w : Worker} (h : w.phase = .greeting) :
    Worker.told (w.step .turn).sent = Worker.told w.sent := by
  rcases w.turn_cases with ⟨-, hstep⟩ | ⟨r, rest, -, -, hstep⟩
  · rw [hstep]
  · have htake := Worker.take_greeting (w := { w with inbox := rest }) h r
    rw [hstep, htake, Worker.told_append, Worker.told_greet]
    exact List.append_nil _

theorem stage_leave (l : AcceptLoop) : l.leave.stage ≠ .serving .polling := by
  unfold leave
  dsimp only
  split
  · exact fun h => nomatch h
  · exact fun h => nomatch h

/-- A packet is taken, and the turn goes on to the timer. -/
theorem readNext_cases (l : AcceptLoop) :
    l.readNext.told = Worker.told (l.past.flatMap Prod.snd) ++ Worker.told (l.worker.step .turn).sent ∧
      l.readNext.running = l.running ∧ l.readNext.stage ≠ .serving .polling := by
  unfold readNext
  dsimp only
  split
  · exact ⟨by rw [told_leave, told_eq], rfl, stage_leave _⟩
  · refine ⟨told_eq _, rfl, ?_⟩
    dsimp only
    split
    · exact fun h => nomatch h
    · exact fun h => nomatch h

/-- A thread that finds `running_` cleared tells nothing more. -/
theorem told_stopped {l : AcceptLoop} (hsane : l.Sane) (hstop : l.running = false) (hturn : l.stage ≠ .serving .polling)
    (e : ThreadEvent) :
    (l.thread e).told = l.told ∧ (l.thread e).running = false ∧ (l.thread e).stage ≠ .serving .polling := by
  have hstays : l.told = l.told ∧ l.running = false ∧ l.stage ≠ .serving .polling := ⟨rfl, hstop, hturn⟩
  have hleave : l.leave.told = l.told ∧ l.leave.running = false ∧ l.leave.stage ≠ .serving .polling :=
    ⟨told_leave l, hstop, stage_leave l⟩
  have hpolling : ∀ {st : Stage}, decide (st = .serving .polling) = false → st ≠ .serving .polling := of_decide_eq_false
  unfold thread
  cases e with
  | accept fd =>
    dsimp only
    split
    · rename_i hstage
      refine ⟨?_, hstop, hpolling rfl⟩
      rw [told_eq, told_eq, (hsane (.inl hstage)).1]
    · exact hstays
  | acceptFails =>
    dsimp only
    split
    · exact ⟨rfl, hstop, hpolling rfl⟩
    · exact hstays
  | arrive bytes =>
    dsimp only
    split
    · exact ⟨rfl, hstop, hturn⟩
    · exact hstays
  | check =>
    dsimp only
    split
    · rw [hstop]
      exact hleave
    · exact hstays
  | read =>
    dsimp only
    split
    · rename_i hreads
      obtain ⟨-, hgreeting⟩ := hreads.resolve_right hturn
      split
      · exact ⟨rfl, hstop, hpolling rfl⟩
      · split
        · obtain ⟨hread, hrunning, hturn'⟩ := l.readNext_cases
          exact ⟨by rw [hread, turn_greeting hgreeting, told_eq], hrunning.trans hstop, hturn'⟩
        · rw [if_neg fun h => hturn h.1]
          exact hstays
    · exact hstays
  | timer due =>
    dsimp only
    split
    · refine ⟨?_, hstop, hpolling rfl⟩
      rw [told_eq, told_eq]
      cases due with
      | false => rfl
      | true => exact congrArg _ (told_heartbeat l.worker).1
    · exact hstays
  | hangUp =>
    dsimp only
    split
    · exact hleave
    · exact hstays

theorem told_stopped_run {l : AcceptLoop} (hsane : l.Sane) (hstop : l.running = false)
    (hturn : l.stage ≠ .serving .polling) (events : List ThreadEvent) : (StreamKit.run thread l events).told = l.told := by
  induction events generalizing l with
  | nil => rfl
  | cons e events ih =>
    obtain ⟨htold, hstop', hturn'⟩ := told_stopped hsane hstop hturn e
    rw [run_cons, ih (hsane.thread e) hstop' hturn', htold]

/-- What arrives on the connection, of some events. -/
def arrivals (events : List ThreadEvent) : Bytes := events.flatMap fun | .arrive bytes => bytes | _ => []

/-- The thread has read `running_` before it was cleared, and takes the next packet. -/
theorem told_polling {l : AcceptLoop} (hsane : l.Sane) (hstop : l.running = false) (hturn : l.stage = .serving .polling)
    (events : List ThreadEvent) :
    (StreamKit.run thread l events).told = l.told ∨
      ∃ r, (packets.frames (l.worker.inbox ++ arrivals events)).head? = some r ∧
        (StreamKit.run thread l events).told = l.told ++ (l.worker.gateway.handlePayload (r.bytes.getD [])).1.map Reply.told := by
  induction events generalizing l with
  | nil => exact .inl rfl
  | cons e events ih =>
    -- once the turn is over, nothing is told any more
    have hover : ∀ l' : AcceptLoop, l.thread e = l' → l'.stage ≠ .serving .polling → l'.running = false →
        (StreamKit.run thread l (e :: events)).told = l'.told := by
      rintro l' rfl hturn' hstop'
      rw [run_cons, told_stopped_run (hsane.thread e) hstop' hturn']
    have hsame : l.thread e = l → arrivals (e :: events) = arrivals events →
        (StreamKit.run thread l (e :: events)).told = l.told ∨
          ∃ r, (packets.frames (l.worker.inbox ++ arrivals (e :: events))).head? = some r ∧
            (StreamKit.run thread l (e :: events)).told =
              l.told ++ (l.worker.gateway.handlePayload (r.bytes.getD [])).1.map Reply.told := by
      intro he harrivals
      rw [run_cons, he, harrivals]
      exact ih hsane hstop hturn
    have hreads : l.Reads := .inr hturn
    cases e with
    | accept fd => exact hsame (if_neg (by rw [hturn]; exact fun h => nomatch h)) rfl
    | acceptFails => exact hsame (if_neg (by rw [hturn]; exact fun h => nomatch h)) rfl
    | check => exact hsame (if_neg (by rw [hturn]; exact fun h => nomatch h)) rfl
    | timer due => exact hsame (if_neg (by rw [hturn]; exact fun h => nomatch h)) rfl
    | arrive bytes =>
      have hthread : l.thread (.arrive bytes) =
          { l with worker := l.worker.step (.arrive bytes), stream := l.stream ++ bytes } := by
        unfold thread
        dsimp only
        rw [hturn]
      have hrest := @ih (l.thread (.arrive bytes)) (hsane.thread (.arrive bytes))
        (by rw [hthread]; exact hstop) (by rw [hthread]; exact hturn)
      have hinbox : (l.thread (.arrive bytes)).worker.inbox = l.worker.inbox ++ bytes := by
        rw [hthread]
        rfl
      have htold : (l.thread (.arrive bytes)).told = l.told := by
        rw [hthread]
        rfl
      have hgateway : (l.thread (.arrive bytes)).worker.gateway = l.worker.gateway := by
        rw [hthread]
        rfl
      rw [hinbox, htold, hgateway, List.append_assoc] at hrest
      exact hrest
    | read =>
      by_cases hlong : overlong l.worker.inbox
      · have hthread : l.thread .read = { l with stage := .aborted } := (if_pos hreads).trans (if_pos hlong)
        rw [hover _ hthread (fun h => nomatch h) hstop]
        exact .inl rfl
      · cases hnext : nextPacket l.worker.inbox with
        | none =>
          by_cases hempty : l.worker.inbox = []
          · have hthread : l.thread .read = { l with stage := .serving .timer } := by
              refine (if_pos hreads).trans ((if_neg hlong).trans ?_)
              rw [hnext, if_neg (by decide), if_pos ⟨hturn, hempty⟩]
            rw [hover _ hthread (fun h => nomatch h) hstop]
            exact .inl rfl
          · apply hsame _ rfl
            refine (if_pos hreads).trans ((if_neg hlong).trans ?_)
            rw [hnext, if_neg (by decide), if_neg fun h => hempty h.2]
        | some p =>
          obtain ⟨r, rest⟩ := p
          have hthread : l.thread .read = l.readNext := by
            refine (if_pos hreads).trans ((if_neg hlong).trans ?_)
            rw [hnext]
            rfl
          have hhead : (packets.frames (l.worker.inbox ++ arrivals (.read :: events))).head? = some r := by
            rw [packets.frames_some (packets.stable _ hnext)]
            rfl
          obtain ⟨hread, hrunning, hturn'⟩ := l.readNext_cases
          rw [hover _ hthread hturn' (hrunning.trans hstop), hread, told_eq]
          rcases turn_told hnext with hsame | hanswer
          · exact .inl (congrArg _ hsame)
          · refine .inr ⟨r, hhead, ?_⟩
            rw [hanswer, List.append_assoc]
    | hangUp =>
      by_cases hgone : l.Reads ∧ overlong l.worker.inbox = false ∧ nextPacket l.worker.inbox = none
      · rw [hover _ (if_pos hgone) (stage_leave l) hstop, told_leave]
        exact .inl rfl
      · exact hsame (if_neg hgone) rfl

/-- A `stop` cuts the service off: afterwards the thread sends sequenced messages
for one more packet at most, the next one of the connection that it serves. -/
theorem stopped_answers_once (wallNs : Clock) (mode : Mode) (before : List AcceptEvent) (after : List ThreadEvent) :
    let l := StreamKit.run step (start wallNs mode) (before ++ [.call .stop])
    (StreamKit.run thread l after).told = l.told ∨
      ∃ r, (packets.frames (l.worker.inbox ++ arrivals after)).head? = some r ∧
        (StreamKit.run thread l after).told = l.told ++ (l.worker.gateway.handlePayload (r.bytes.getD [])).1.map Reply.told := by
  have hsane : (StreamKit.run step (start wallNs mode) (before ++ [.call .stop])).Sane :=
    run_inv_all Sane (fun _ e h => h.step e) (booked_start wallNs mode).sane
  have hstop : (StreamKit.run step (start wallNs mode) (before ++ [.call .stop])).running = false := by
    rw [run_append]
    rfl
  dsimp only
  by_cases hturn : (StreamKit.run step (start wallNs mode) (before ++ [.call .stop])).stage = .serving .polling
  · exact told_polling hsane hstop hturn after
  · exact .inl (told_stopped_run hsane hstop hturn after)

/-! ## One connection after the other -/

/-- The answers to whole streams, one connection after the other. -/
def serveAll (g : Gateway) (d : LoginDesk) : List Bytes → List (List Packet) × Gateway × LoginDesk
  | [] => ([], g, d)
  | stream :: streams =>
    let c := connection g d stream.length stream
    let rest := serveAll c.2.1 c.2.2 streams
    (c.1 :: rest.1, rest.2)

theorem serveAll_append (g : Gateway) (d : LoginDesk) (streams : List Bytes) (stream : Bytes) :
    serveAll g d (streams ++ [stream]) =
      let s := serveAll g d streams
      let c := connection s.2.1 s.2.2 stream.length stream
      (s.1 ++ [c.1], c.2) := by
  induction streams generalizing g d with
  | nil => rfl
  | cons first streams ih =>
    rw [List.cons_append, serveAll, ih]
    rfl

/-- A connection behind those that are closed. -/
def behind (g : Gateway) (d : LoginDesk) (l : AcceptLoop) : Worker :=
  let s := serveAll g d (l.past.map Prod.fst)
  { gateway := s.2.1, desk := s.2.2 }

/-- Without calls of the runner: the connections that are closed were answered in
full, and the thread is on its way through the stream of the current one. -/
structure Serves (g : Gateway) (d : LoginDesk) (l : AcceptLoop) : Prop where
  running : l.running = true
  past : l.past.map (fun p => Worker.answers p.2) = (serveAll g d (l.past.map Prod.fst)).1
  idle : l.stage = .accepting ∨ l.stage = .returned →
    l.worker.gateway = (behind g d l).gateway ∧ l.worker.desk = (behind g d l).desk ∧ l.stream = []
  busy : l.stage ≠ .accepting → l.stage ≠ .returned → ∃ taken, Worker.At (behind g d l) l.stream taken l.worker

namespace Serves

variable {g : Gateway} {d : LoginDesk} {l : AcceptLoop}

theorem leave (h : Serves g d l) {taken : List PayloadRead}
    (hat : Worker.At (behind g d l) l.stream taken l.worker)
    (hover : l.worker.phase = .closed ∨ nextPacket l.worker.inbox = none) : Serves g d l.leave := by
  obtain ⟨hanswers, hgateway, hdesk⟩ := hat.connection.2 hover
  have hpast : l.leave.past.map Prod.fst = l.past.map Prod.fst ++ [l.stream] := List.map_append
  refine ⟨h.running, ?_, ?_, ?_⟩
  · rw [hpast, serveAll_append]
    dsimp only
    rw [← h.past, ← hanswers]
    exact List.map_append
  · rw [behind, hpast, serveAll_append]
    exact fun _ => ⟨hgateway, hdesk, rfl⟩
  · intro haccepting hreturned
    have hstage : l.leave.stage = .accepting ∨ l.leave.stage = .returned := by
      unfold AcceptLoop.leave
      dsimp only
      split
      · exact .inl rfl
      · exact .inr rfl
    exact absurd hstage (not_or.2 ⟨haccepting, hreturned⟩)

/-- Another state on the same connection. -/
theorem onward (h : Serves g d l) {l' : AcceptLoop} (hrunning : l'.running = l.running) (hpast : l'.past = l.past)
    (hbusy : l'.stage ≠ .accepting ∧ l'.stage ≠ .returned) {taken : List PayloadRead}
    (hat : Worker.At (behind g d l) l'.stream taken l'.worker) : Serves g d l' := by
  refine ⟨hrunning.trans h.running, by rw [hpast]; exact h.past, ?_, ?_⟩
  · exact fun hidle => absurd hidle (not_or.2 hbusy)
  · have hbehind : behind g d l' = behind g d l := by rw [behind, hpast, behind]
    rw [hbehind]
    exact fun _ _ => ⟨taken, hat⟩

theorem thread (h : Serves g d l) (e : ThreadEvent) : Serves g d (l.thread e) := by
  have hserving : ∀ turn, Stage.serving turn ≠ .accepting ∧ Stage.serving turn ≠ .returned :=
    fun turn => ⟨fun h => (nomatch h), fun h => nomatch h⟩
  have hbusy : ∀ turn, l.stage = .serving turn → ∃ taken, Worker.At (behind g d l) l.stream taken l.worker := by
    intro turn hturn
    exact h.busy (by rw [hturn]; exact (hserving turn).1) (by rw [hturn]; exact (hserving turn).2)
  have hreads : l.Reads → ∃ turn, l.stage = .serving turn := by
    rintro (⟨htop, -⟩ | hpolling)
    · exact ⟨_, htop⟩
    · exact ⟨_, hpolling⟩
  unfold AcceptLoop.thread
  cases e with
  | accept fd =>
    dsimp only
    split
    · rename_i hstage
      obtain ⟨hgateway, hdesk, hstream⟩ := h.idle (.inl hstage)
      have hat : Worker.At (behind g d l) l.stream [] { gateway := l.worker.gateway, desk := l.worker.desk } := by
        rw [hgateway, hdesk, hstream]
        exact Worker.At.start _ _
      exact h.onward rfl rfl (hserving .top) hat
    · exact h
  | acceptFails =>
    dsimp only
    split
    · rename_i hstage
      exact ⟨h.running, h.past, fun _ => h.idle (.inl hstage), fun _ hreturned => absurd rfl hreturned⟩
    · exact h
  | arrive bytes =>
    dsimp only
    split
    · rename_i turn hturn
      obtain ⟨taken, hat⟩ := hbusy turn hturn
      exact h.onward rfl rfl (by rw [hturn]; exact hserving turn) (hat.arrive bytes)
    · exact h
  | check =>
    dsimp only
    split
    · rename_i hturn
      rw [if_pos h.running]
      obtain ⟨taken, hat⟩ := hbusy .top hturn.1
      exact h.onward rfl rfl (hserving .polling) hat
    · exact h
  | read =>
    dsimp only
    split
    · rename_i hread
      obtain ⟨turn, hturn⟩ := hreads hread
      obtain ⟨taken, hat⟩ := hbusy turn hturn
      split
      · exact h.onward rfl rfl ⟨fun h => (nomatch h), fun h => nomatch h⟩ hat
      · split
        · obtain ⟨more, hmore⟩ := hat.turn
          unfold readNext
          dsimp only
          split
          · rename_i hclosed
            have hnow : Serves g d { l with worker := l.worker.step .turn } :=
              h.onward rfl rfl (by rw [hturn]; exact hserving turn) hmore
            exact hnow.leave hmore (.inl hclosed)
          · exact h.onward rfl rfl (hserving _) hmore
        · split
          · exact h.onward rfl rfl (hserving .timer) hat
          · exact h
    · exact h
  | timer due =>
    dsimp only
    split
    · rename_i hturn
      obtain ⟨taken, hat⟩ := hbusy .timer hturn
      cases due with
      | false => exact h.onward rfl rfl (hserving .top) hat
      | true => exact h.onward rfl rfl (hserving .top) hat.heartbeat
    · exact h
  | hangUp =>
    dsimp only
    split
    · rename_i hgone
      obtain ⟨turn, hturn⟩ := hreads hgone.1
      obtain ⟨taken, hat⟩ := hbusy turn hturn
      exact h.leave hat (.inr hgone.2.2)
    · exact h

theorem start (wallNs : Clock) (mode : Mode) : Serves { wallNs := wallNs } {} (start wallNs mode) := by
  cases mode with
  | listening acceptOne => exact ⟨rfl, rfl, fun _ => ⟨rfl, rfl, rfl⟩, fun h => absurd rfl h⟩
  | onFd =>
    refine ⟨rfl, rfl, ?_, fun _ _ => ⟨[], Worker.At.start _ _⟩⟩
    rintro (h | h)
    · nomatch h
    · nomatch h

end Serves

/-! ## What lies behind a payload -/

def readNextIn (l : AcceptLoop) (behind : Bytes) : AcceptLoop :=
  let w := l.worker.stepIn (.turn, behind)
  if w.phase = .closed then { l with worker := w }.leave
  else { l with worker := w, stage := .serving (if l.worker.phase = .greeting then .top else .timer) }

/-- `thread`, in a memory with the second behind the payload. -/
def threadIn (l : AcceptLoop) (x : ThreadEvent × Bytes) : AcceptLoop :=
  match x.1 with
  | .read =>
    if l.Reads ∧ overlong l.worker.inbox = false ∧ (nextPacket l.worker.inbox).isSome then l.readNextIn x.2
    else l.thread .read
  | e => l.thread e

/-- A request that is taken does not count more quotes than it holds. -/
def Holds (l : AcceptLoop) : ThreadEvent → Prop
  | .read => l.worker.Holds .turn
  | _ => True

instance (l : AcceptLoop) : (e : ThreadEvent) → Decidable (l.Holds e)
  | .read => inferInstanceAs (Decidable (l.worker.Holds .turn))
  | .accept _ | .acceptFails | .arrive _ | .check | .timer _ | .hangUp => .isTrue trivial

theorem threadIn_eq (l : AcceptLoop) (x : ThreadEvent × Bytes) (h : l.Holds x.1) : l.threadIn x = l.thread x.1 := by
  obtain ⟨e, behind⟩ := x
  cases e with
  | read =>
    unfold threadIn
    dsimp only
    split
    · rename_i hread
      obtain ⟨hreads, hfits, hnext⟩ := hread
      have hthread : l.thread .read = l.readNext :=
        (if_pos hreads).trans ((if_neg (by rw [hfits]; decide)).trans (if_pos hnext))
      rw [hthread, readNextIn, readNext, l.worker.stepIn_eq (.turn, behind) h]
    · rfl
  | accept fd => rfl
  | acceptFails => rfl
  | arrive bytes => rfl
  | check => rfl
  | timer due => rfl
  | hangUp => rfl

/-- However the streams of the connections are cut up, whatever the clock sends in
between, and whatever lies in memory behind the payloads, if no mass quote counts
more than it holds: every connection that is closed was answered as `connection`
answers the whole of its stream, with the gateway that the ones before it left,
and the current one is on its way there. -/
theorem serves_all (wallNs : Clock) (mode : Mode) (events : List (ThreadEvent × Bytes))
    (hheld : AllAlong thread Holds (start wallNs mode) (events.map Prod.fst)) :
    let l := StreamKit.run threadIn (start wallNs mode) events
    let s := serveAll { wallNs := wallNs } {} (l.past.map Prod.fst)
    l.past.map (fun p => Worker.answers p.2) = s.1 ∧
      Worker.answers l.worker.sent <+: (connection s.2.1 s.2.2 l.stream.length l.stream).1 := by
  have hsame : StreamKit.run threadIn (start wallNs mode) events =
      StreamKit.run thread (start wallNs mode) (events.map Prod.fst) :=
    run_map_eq (fun _ => True) (fun _ _ _ _ => trivial) (fun l x _ h => l.threadIn_eq x h) trivial hheld
  have hserves : Serves { wallNs := wallNs } {} (StreamKit.run thread (start wallNs mode) (events.map Prod.fst)) :=
    run_inv_all (Serves _ _) (fun _ e h => h.thread e) (Serves.start wallNs mode)
  have hsane : (StreamKit.run thread (start wallNs mode) (events.map Prod.fst)).Sane :=
    run_inv_all Sane (fun _ e h => h.thread e) (booked_start wallNs mode).sane
  rw [← hsame] at hserves hsane
  dsimp only
  generalize StreamKit.run threadIn (start wallNs mode) events = l at hserves hsane ⊢
  refine ⟨hserves.past, ?_⟩
  by_cases hidle : l.stage = .accepting ∨ l.stage = .returned
  · rw [(hsane hidle).1]
    exact List.nil_prefix
  · obtain ⟨haccepting, hreturned⟩ := not_or.1 hidle
    obtain ⟨taken, hat⟩ := hserves.busy haccepting hreturned
    exact hat.connection.1

/-- A connection with a mass quote, and another one behind it. -/
def twoConnections : List (ThreadEvent × Bytes) :=
  [(.accept 5, []), (.arrive [0, 1, 82, 0, 79, 85], []), (.read, []),
    (.arrive (Gateway.quotePayload 1 [⟨70616, 6000, 6010, 10, 20⟩]), []), (.check, []), (.read, [7, 7, 7]), (.timer true, []),
    (.check, []), (.hangUp, []), (.accept 5, []), (.arrive [0, 1, 82], []), (.read, [])]

theorem serves_all_twoConnections :
    let l := StreamKit.run threadIn (start { reading := fun _ => 0 } (.listening false)) twoConnections
    let s := serveAll { wallNs := { reading := fun _ => 0 } } {} (l.past.map Prod.fst)
    l.past.map (fun p => Worker.answers p.2) = s.1 ∧
      Worker.answers l.worker.sent <+: (connection s.2.1 s.2.2 l.stream.length l.stream).1 :=
  serves_all { reading := fun _ => 0 } (.listening false) twoConnections (by decide +kernel)

end AcceptLoop

end BistColo.Mock
