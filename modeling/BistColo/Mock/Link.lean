import BistColo.Mock.Worker
import BistColo.Ouch.Calls
import BistColo.Ouch.Ends
/-!
# A client and the gateway

A client of `ouch/client.hpp` and the worker thread of the mock gateway at the two
ends of a TCP connection. The kernel takes bytes of the client's writes as it
likes, carries them over as it likes, and hands over what the gateway wrote in
chunks as it likes; calls, polls, turns of the thread and heartbeats fall in
between. `link_in_order` says that the client might as well call the gateway
directly, as long as it makes its writes in turn.
-/

open StreamKit

namespace BistColo.Mock

open Soup Ouch
open OuchSession (Fits Hears payloads)

/-! ## The answers are sound packets -/

namespace Reply

def kind : Reply → ServerMsg
  | accepted _ => .orderAccepted
  | rejected _ => .orderRejected
  | replaced _ => .orderReplaced
  | canceled _ => .orderCanceled
  | massQuoteAck _ => .massQuoteAck
  | massQuoteRejection _ => .massQuoteRejection

def WellTyped (r : Reply) : Prop := r.messageType = r.kind.typeByte

theorem length_bytes (r : Reply) : r.bytes.length = r.kind.size := by
  cases r with
  | accepted m => exact m.length_bytes
  | rejected m => exact m.length_bytes
  | replaced m => exact m.length_bytes
  | canceled m => exact m.length_bytes
  | massQuoteAck m => exact m.length_bytes
  | massQuoteRejection m => exact m.length_bytes

/-- A reply of its own type reaches its own handler. -/
theorem packet_sound {r : Reply} (h : r.WellTyped) :
    fault r.packet = none ∧ message r.packet = some (r.kind, r.bytes) := by
  have htype : r.packet.packetType = Pkt.sequencedData := rfl
  have hpayload : r.packet.payload = r.bytes := rfl
  have hhead : r.bytes.head? = some r.kind.typeByte := by
    rw [← h]
    exact r.head_bytes
  obtain ⟨rest, hrest⟩ := List.head?_eq_some_iff.1 hhead
  constructor
  · unfold fault
    rw [htype, hpayload, if_neg (by decide), if_pos rfl, hrest]
    dsimp only
    rw [ServerMsg.ofType_typeByte]
    dsimp only
    rw [← hrest, if_pos r.length_bytes]
  · unfold message
    rw [htype, hpayload, if_pos rfl, hhead, Option.bind_some, ServerMsg.ofType_typeByte, Option.bind_some,
      if_pos r.length_bytes]

theorem wellTyped_singleton {r : Reply} (h : r.WellTyped) : ∀ r' ∈ [r], r'.WellTyped := by
  intro r' hr'
  rwa [List.mem_singleton.1 hr']

end Reply

namespace Gateway

open Reply

theorem enterOrder_wellTyped (g : Gateway) (eo : EnterOrder) : ∀ r ∈ (g.enterOrder eo).1, r.WellTyped := by
  unfold enterOrder
  split
  · exact wellTyped_singleton rfl
  · dsimp only
    split
    · exact wellTyped_singleton rfl
    · exact wellTyped_singleton rfl

theorem cancelOrder_wellTyped (g : Gateway) (co : CancelOrder) : ∀ r ∈ (g.cancelOrder co).1, r.WellTyped := by
  unfold cancelOrder
  dsimp only
  split
  · exact wellTyped_singleton rfl
  · exact wellTyped_singleton rfl

theorem quoteEntries_wellTyped (g : Gateway) (token : OrderToken) (es : List QuoteEntry) :
    ∀ r ∈ (g.quoteEntries token es).1, r.WellTyped := by
  induction es generalizing g with
  | nil => exact List.forall_mem_nil _
  | cons e es ih =>
    have hentry : ∀ r ∈ (g.quoteEntry token e).1, r.WellTyped := by
      unfold quoteEntry
      split
      · exact wellTyped_singleton rfl
      · exact List.forall_mem_cons.2 ⟨rfl, wellTyped_singleton rfl⟩
    exact List.forall_mem_append.2 ⟨hentry, ih _⟩

theorem handlePayload_wellTyped (g : Gateway) (payload : Bytes) : ∀ r ∈ (g.handlePayload payload).1, r.WellTyped := by
  unfold handlePayload
  split
  · exact List.forall_mem_nil _
  · split
    · split
      · exact List.forall_mem_nil _
      · exact g.enterOrder_wellTyped _
    · split
      · split
        · exact List.forall_mem_nil _
        · exact g.cancelOrder_wellTyped _
      · split
        · split
          · exact List.forall_mem_nil _
          · exact wellTyped_singleton rfl
        · split
          · split
            · exact List.forall_mem_nil _
            · exact wellTyped_singleton rfl
          · split
            · split
              · exact List.forall_mem_nil _
              · exact g.quoteEntries_wellTyped _ _
            · exact List.forall_mem_nil _

end Gateway

namespace Worker

theorem greet_sound (d : LoginDesk) (r : PayloadRead) : ∀ p ∈ (greet d r).1, fault p = none := by
  intro p hp
  rcases greet_cases d r with ⟨-, -, haccepted⟩ | ⟨-, hrejected⟩
  · rw [haccepted, List.mem_singleton] at hp
    rw [hp]
    decide
  · unfold fault
    rw [hrejected p hp]
    rfl

theorem replies_sound (g : Gateway) (payload : Bytes) : ∀ p ∈ (g.handlePayload payload).1.map Reply.packet, fault p = none := by
  intro p hp
  obtain ⟨r, hr, rfl⟩ := List.mem_map.1 hp
  exact (Reply.packet_sound (g.handlePayload_wellTyped payload r hr)).1

/-- The thread writes sound packets behind those it wrote before. -/
theorem sent_take_sound (w : Worker) (r : PayloadRead) :
    ∃ more, (w.take r).sent = w.sent ++ more ∧ ∀ p ∈ more, fault p = none := by
  have hnothing : ∃ more, w.sent = w.sent ++ more ∧ ∀ p ∈ more, fault p = none :=
    ⟨[], (List.append_nil _).symm, List.forall_mem_nil _⟩
  unfold take
  dsimp only
  split
  · exact ⟨_, rfl, greet_sound w.desk r⟩
  · split
    · exact ⟨_, rfl, List.forall_mem_singleton.2 (by decide)⟩
    · split
      · exact ⟨_, rfl, replies_sound w.gateway _⟩
      · exact hnothing
  · exact hnothing

theorem sent_step (w : Worker) (e : Event) : ∃ more, (w.step e).sent = w.sent ++ more ∧ ∀ p ∈ more, fault p = none := by
  have hnothing : ∃ more, w.sent = w.sent ++ more ∧ ∀ p ∈ more, fault p = none :=
    ⟨[], (List.append_nil _).symm, List.forall_mem_nil _⟩
  cases e with
  | arrive bytes => exact hnothing
  | heartbeat =>
    rcases w.heartbeat_cases with ⟨-, hstep⟩ | ⟨-, hstep⟩
    · rw [hstep]
      exact hnothing
    · rw [hstep]
      exact ⟨_, rfl, List.forall_mem_singleton.2 (by decide)⟩
  | turn =>
    rcases w.turn_cases with ⟨-, hstep⟩ | ⟨r, rest, -, -, hstep⟩
    · rw [hstep]
      exact hnothing
    · rw [hstep]
      exact sent_take_sound _ r

end Worker

/-! ## The connection -/

structure Link where
  client : OuchClient
  worker : Worker
  /-- how many bytes of the client's wire have arrived at the gateway -/
  carried : Nat := 0
  /-- how many bytes of the gateway's have arrived at the client's socket -/
  delivered : Nat := 0

/-- What happens at either end or in between. -/
inductive LinkEvent
  | request (now : UInt64) (r : OuchClient.Request)
  | session (op : OuchSession.Op)
  /-- the client's socket has room for `n` more bytes -/
  | grant (n : Nat)
  | carry (n : Nat)
  | turn
  | heartbeat
  | deliver (n : Nat)
  | hangUp
deriving DecidableEq

namespace Link

def session (l : Link) : OuchSession := l.client.session

def withSession (l : Link) (s : OuchSession) : Link := { l with client := { l.client with session := s } }

/-- The kernel will take up to `n` bytes of a later write. -/
def grant (s : OuchSession) (n : Nat) : OuchSession :=
  s.withSocket { s.socket with sends := s.socket.sends ++ [.accept n] }

/-- A later read will be answered so. -/
def answer (s : OuchSession) (a : RecvAnswer) : OuchSession :=
  s.withSocket { s.socket with recvs := s.socket.recvs ++ [a] }

/-- Some bytes, as one read delivers them. -/
def chunkOf (bytes : Bytes) : Option Chunk :=
  if h : bytes ≠ [] ∧ bytes.length ≤ 8192 then some ⟨bytes, h.1, h.2⟩ else none

/-- Everything the gateway wrote. -/
def output (l : Link) : Bytes := l.worker.sent.flatMap Packet.encode

def step (l : Link) : LinkEvent → Link
  | .request now r => { l with client := (l.client.call now r).2 }
  | .session op => l.withSession (l.session.step op)
  | .grant n => l.withSession (grant l.session n)
  | .carry n =>
    let wire := l.session.socket.wire
    { l with worker := l.worker.step (.arrive ((wire.drop l.carried).take n)), carried := min (l.carried + n) wire.length }
  | .turn => { l with worker := l.worker.step .turn }
  | .heartbeat => { l with worker := l.worker.step .heartbeat }
  | .deliver n =>
    match chunkOf ((l.output.drop l.delivered).take n) with
    | none => l
    | some c => { l.withSession (answer l.session (.data c)) with delivered := l.delivered + c.bytes.length }
  | .hangUp =>
    if l.worker.phase = .closed ∧ l.delivered = l.output.length then l.withSession (answer l.session .eof) else l

/-- What is handed to the session does not count more quotes than it holds. -/
def Held : OuchSession.Op → Prop
  | .send m => Gateway.CountHeld m.bytes
  | .beginLogin | .requestLogout | .pollIo => True

/-- The client makes its writes in turn, and what it hands to the session itself
fits into a packet and is not less than it says. -/
def Careful (l : Link) : LinkEvent → Prop
  | .request now r => l.client.Reaches now r → l.client.Admits r →
      l.session.WritesInTurn (.send (r.message (l.client.claimed r).1))
  | .session op => l.session.WritesInTurn op ∧ Fits op ∧ Held op
  | _ => True

/-- Nothing has happened yet. -/
structure Fresh (l : Link) : Prop where
  session : l.session.Fresh
  noErrors : l.session.socket.NoSendErrors
  recvs : l.session.socket.recvs = []
  phase : l.worker.phase = .greeting
  inbox : l.worker.inbox = []
  sent : l.worker.sent = []
  carried : l.carried = 0
  delivered : l.delivered = 0

/-- Nothing is on its way. -/
structure Settled (l : Link) : Prop where
  outPending : l.session.outPending = []
  carried : l.carried = l.session.socket.wire.length
  taken : l.worker.phase = .closed ∨ nextPacket l.worker.inbox = none
  delivered : l.delivered = l.output.length
  recvs : l.session.socket.recvs = []
  inBuffer : soup.next l.session.inBuffer = none

/-! ## What the client calls -/

theorem message_fits {r : OuchClient.Request} (h : r.illegal = false) (tok : OrderToken) :
    (r.message tok).bytes.length ≤ 65534 := by
  cases r with
  | place args =>
    change (args.message tok).bytes.length ≤ _
    rw [EnterOrder.length_bytes]
    decide
  | replace args =>
    change (args.message tok).bytes.length ≤ _
    rw [ReplaceOrder.length_bytes]
    decide
  | cancelByToken token =>
    change (CancelOrder.bytes _).length ≤ _
    rw [CancelOrder.length_bytes]
    decide
  | cancelByOrderId book side id =>
    change (CancelByOrderId.bytes _).length ≤ _
    rw [CancelByOrderId.length_bytes]
    decide
  | massQuote args =>
    have hentries : ¬ (args.entries = [] ∨ maxQuoteEntries < args.entries.length) := of_decide_eq_false h
    rw [not_or, Nat.not_lt, maxQuoteEntries] at hentries
    change (args.blob tok).length ≤ _
    rw [length_blob]
    omega

/-- A call leaves its session alone, or hands one message to it. -/
theorem call_session (c : OuchClient) (now : UInt64) (r : OuchClient.Request) :
    (c.call now r).2.session = c.session ∨
      (c.Reaches now r ∧ c.Admits r ∧
        (c.call now r).2.session = c.session.step (.send (r.message (c.claimed r).1))) := by
  rcases c.call_cases now r with ⟨-, e, he⟩ | ⟨-, -, e, he⟩ | ⟨-, -, -, e, he⟩ | ⟨hreach, hadm, he⟩
  · exact .inl (by rw [he])
  · exact .inl (by rw [he]; rfl)
  · exact .inl (by rw [he]; rfl)
  · exact .inr ⟨hreach, hadm, by rw [he]; rfl⟩

/-! ## From the client to the gateway -/

/-- The thread has taken the first `n` of the packets that were asked for, and
the others are on the way. -/
structure Upstream (w₀ w : Worker) (s : OuchSession) (carried : Nat) (asked : List Packet) (n : Nat) : Prop where
  integral : s.Integral
  asks : Ouch.requests s.log = asked.map Packet.encode
  inside : carried ≤ s.socket.wire.length
  left : Backlog Packet.encode asked n (w.inbox ++ (s.socket.wire.drop carried ++ s.outPending))
  bare : w.bare = ((asked.take n).map reading).foldl Worker.take w₀.bare

section Upstream

variable {w₀ w : Worker} {s : OuchSession} {carried : Nat} {asked : List Packet} {n : Nat}

theorem Upstream.step (h : Upstream w₀ w s carried asked n) {op : OuchSession.Op} (hturn : s.WritesInTurn op)
    (hfits : Fits op) : ∃ more, Upstream w₀ w (s.step op) carried (asked ++ more) n ∧
      (payloads more = [] ∨ (s.state = .active ∧ ∃ m, op = .send m ∧ payloads more = [m.bytes])) := by
  obtain ⟨more, hmore, horders⟩ := s.requests_step hfits
  obtain ⟨d, hd⟩ := OuchSession.wire_step h.integral.noErrors op
  have hintegral := h.integral.step hturn
  refine ⟨more, ⟨hintegral, ?_, ?_, ?_, ?_⟩, horders⟩
  · rw [hmore, h.asks, List.map_append]
  · rw [← hd, List.length_append]
    exact Nat.le_add_right_of_le h.inside
  · -- the new bytes of the wire and the new stash are the old stash and the new packets
    have hold : s.socket.wire ++ s.outPending = (Ouch.requests s.log).flatten := h.integral.contents
    have hnew : (s.step op).socket.wire ++ (s.step op).outPending = (Ouch.requests (s.step op).log).flatten :=
      hintegral.contents
    rw [hmore, List.flatten_append, ← hold, ← hd, List.append_assoc, List.append_assoc, List.append_cancel_left_eq] at hnew
    have hwrite := h.left.write more
    rw [← hd, List.drop_append_of_le_length h.inside, List.append_assoc (s.socket.wire.drop carried), hnew]
    rw [List.flatMap_def] at hwrite
    simpa using hwrite
  · rw [List.take_append_of_le_length h.left.le]
    exact h.bare

theorem Upstream.client (h : Upstream w₀ w s carried asked n) {s' : OuchSession}
    (hnoErrors : s'.socket.NoSendErrors) (hwire : s'.socket.wire = s.socket.wire) (hstash : s'.outPending = s.outPending)
    (hlog : s'.log = s.log) : Upstream w₀ w s' carried asked n := by
  obtain ⟨hintegral, hasks, hcarried, hleft, hbare⟩ := h
  refine ⟨⟨hnoErrors, ?_⟩, ?_, ?_, ?_, hbare⟩
  · rw [OuchSession.pipe, hwire, hstash, hlog]
    exact hintegral.contents
  · rwa [hlog]
  · rwa [hwire]
  · rwa [hwire, hstash]

theorem Upstream.carry (h : Upstream w₀ w s carried asked n) (k : Nat) :
    Upstream w₀ (w.step (.arrive ((s.socket.wire.drop carried).take k))) s (min (carried + k) s.socket.wire.length)
      asked n where
  integral := h.integral
  asks := h.asks
  inside := Nat.min_le_right _ _
  left := by
    have hcut : s.socket.wire.drop (min (carried + k) s.socket.wire.length) = (s.socket.wire.drop carried).drop k := by
      rw [List.drop_drop]
      by_cases hk : carried + k ≤ s.socket.wire.length
      · rw [Nat.min_eq_left hk]
      · rw [Nat.min_eq_right (Nat.le_of_not_le hk), List.drop_length, List.drop_eq_nil_of_le (Nat.le_of_not_le hk)]
    have hinbox : (w.step (.arrive ((s.socket.wire.drop carried).take k))).inbox =
        w.inbox ++ (s.socket.wire.drop carried).take k := rfl
    rw [hinbox, hcut, List.append_assoc, ← List.append_assoc ((s.socket.wire.drop carried).take k),
      List.take_append_drop]
    exact h.left
  bare := h.bare

theorem Upstream.turn (h : Upstream w₀ w s carried asked n) :
    ∃ n', Upstream w₀ (w.step .turn) s carried asked n' := by
  rcases w.turn_cases with ⟨-, hstep⟩ | ⟨r, rest, -, hnext, hstep⟩
  · rw [hstep]
    exact ⟨n, h⟩
  · have hnext' : packets.next w.inbox = some (r, rest) := hnext
    obtain ⟨p, hp, rfl, hleft⟩ := h.left.next packets nextPacket_packet hnext'
    rw [hstep]
    refine ⟨n + 1, h.integral, h.asks, h.inside, ?_, ?_⟩
    · rw [Worker.inbox_take]
      exact hleft
    · have htaken : asked.take (n + 1) = asked.take n ++ [p] := by
        rw [List.take_add_one, hp]
        rfl
      rw [Worker.bare_take, htaken, List.map_append, List.foldl_append, ← h.bare]
      rfl

theorem Upstream.heartbeat (h : Upstream w₀ w s carried asked n) : Upstream w₀ (w.step .heartbeat) s carried asked n := by
  have hinbox := w.inbox_heartbeat
  exact ⟨h.integral, h.asks, h.inside, by rw [hinbox]; exact h.left, by rw [Worker.bare_heartbeat]; exact h.bare⟩

end Upstream

/-! ## From the gateway to the client -/

/-- The client has dispatched the first `m` of the packets that the thread wrote,
none of them is faulty, and the others are on the way. -/
structure Downstream (l : Link) (m : Nat) : Prop where
  sound : ∀ p ∈ l.worker.sent, fault p = none
  inside : l.delivered ≤ l.output.length
  hears : l.session.Hears l.worker.sent m (l.output.drop l.delivered)

section Downstream

variable {l : Link} {m : Nat}

/-- The thread goes on. -/
theorem Downstream.worker (h : Downstream l m) (e : Worker.Event) {carried : Nat} :
    Downstream { l with worker := l.worker.step e, carried := carried } m := by
  obtain ⟨more, hmore, hsound⟩ := l.worker.sent_step e
  have houtput : ({ l with worker := l.worker.step e, carried := carried } : Link).output =
      l.output ++ more.flatMap Packet.encode := by
    change (l.worker.step e).sent.flatMap Packet.encode = _
    rw [hmore, List.flatMap_append]
    rfl
  refine ⟨?_, ?_, ?_⟩
  · change ∀ p ∈ (l.worker.step e).sent, fault p = none
    rw [hmore]
    exact List.forall_mem_append.2 ⟨h.sound, hsound⟩
  · rw [houtput, List.length_append]
    exact Nat.le_add_right_of_le h.inside
  · change l.session.Hears (l.worker.step e).sent m (List.drop l.delivered (Link.output _))
    rw [houtput, List.drop_append_of_le_length h.inside, hmore]
    exact h.hears.more more

/-- Another session that holds the same. -/
theorem Downstream.session (h : Downstream l m) {c : OuchClient} {m' : Nat}
    (hears : c.session.Hears l.worker.sent m' (l.output.drop l.delivered)) : Downstream { l with client := c } m' :=
  ⟨h.sound, h.inside, hears⟩

theorem Downstream.deliver (h : Downstream l m) (n : Nat) : Downstream (l.step (.deliver n)) m := by
  unfold step
  dsimp only
  split
  · exact h
  · rename_i c hchunk
    have hc : c.bytes = (l.output.drop l.delivered).take n := by
      unfold chunkOf at hchunk
      split at hchunk
      · rw [← Option.some.inj hchunk]
      · cases hchunk
    have hrest : l.output.drop (l.delivered + c.bytes.length) = (l.output.drop l.delivered).drop n := by
      rw [← List.drop_drop, hc, List.length_take]
      by_cases hn : n ≤ (l.output.drop l.delivered).length
      · rw [Nat.min_eq_left hn]
      · rw [Nat.min_eq_right (Nat.le_of_not_le hn), List.drop_length, List.drop_eq_nil_of_le (Nat.le_of_not_le hn)]
    refine ⟨h.sound, ?_, ?_⟩
    · change l.delivered + c.bytes.length ≤ l.output.length
      have hlen := congrArg List.length hc
      rw [List.length_take, List.length_drop] at hlen
      have := h.inside
      omega
    · change (answer l.session (.data c)).Hears l.worker.sent m (l.output.drop (l.delivered + c.bytes.length))
      rw [hrest]
      refine ⟨h.hears.isOpen, ?_, h.hears.calls, h.hears.messages⟩
      have hrecvs : OuchSession.answered (answer l.session (.data c)).socket.recvs =
          OuchSession.answered l.session.socket.recvs ++ c.bytes := by
        change OuchSession.answered (l.session.socket.recvs ++ [.data c]) = _
        simp [OuchSession.answered]
      have hbuffer : (answer l.session (.data c)).inBuffer = l.session.inBuffer := rfl
      rw [hrecvs, hbuffer, List.append_assoc (OuchSession.answered _), hc, List.take_append_drop]
      exact h.hears.left

theorem Downstream.hangUp (h : Downstream l m) : Downstream (l.step .hangUp) m := by
  unfold step
  dsimp only
  split
  · refine h.session ⟨h.hears.isOpen, ?_, h.hears.calls, h.hears.messages⟩
    have hrecvs : OuchSession.answered (answer l.session .eof).socket.recvs = OuchSession.answered l.session.socket.recvs := by
      change OuchSession.answered (l.session.socket.recvs ++ [.eof]) = _
      simp [OuchSession.answered]
    rw [hrecvs]
    exact h.hears.left
  · exact h

end Downstream

/-! ## Both ways -/

/-- How far the packets of both directions are. -/
structure Sound (w₀ : Worker) (l : Link) (asked : List Packet) (n m : Nat) : Prop where
  up : Upstream w₀ l.worker l.session l.carried asked n
  down : Downstream l m

section Sound

variable {w₀ : Worker} {l : Link} {asked : List Packet} {n m : Nat}

/-- An operation of the session, by whichever call. -/
theorem Sound.op (h : Sound w₀ l asked n m) {c : OuchClient} {op : OuchSession.Op} (hturn : l.session.WritesInTurn op)
    (hfits : Fits op) (hc : c.session = l.session.step op) :
    ∃ more n m, Sound w₀ { l with client := c } (asked ++ more) n m ∧
      (payloads more = [] ∨ (l.session.state = .active ∧ ∃ msg, op = .send msg ∧ payloads more = [msg.bytes])) := by
  obtain ⟨more, hup, horders⟩ := h.up.step hturn hfits
  obtain ⟨m', -, hears⟩ := h.down.hears.step h.down.sound op
  refine ⟨more, n, m', ⟨?_, h.down.session ?_⟩, horders⟩
  · change Upstream w₀ l.worker c.session l.carried (asked ++ more) n
    rwa [hc]
  · rwa [hc]

/-- The message that an event hands to the session. -/
def Hands (l : Link) (e : LinkEvent) (msg : OuchSession.Outgoing) : Prop :=
  e = .session (.send msg) ∨
    ∃ now r, e = .request now r ∧ l.client.Reaches now r ∧ l.client.Admits r ∧ msg = r.message (l.client.claimed r).1

/-- The packets that an event adds to those asked for: no unsequenced one, or the
message that is handed to an active session. -/
def Adds (l : Link) (e : LinkEvent) (more : List Packet) : Prop :=
  payloads more = [] ∨ (l.session.state = .active ∧ ∃ msg, l.Hands e msg ∧ payloads more = [msg.bytes])

theorem Sound.step (h : Sound w₀ l asked n m) {e : LinkEvent} (hc : l.Careful e) :
    ∃ more n m, Sound w₀ (l.step e) (asked ++ more) n m ∧ l.Adds e more := by
  -- most events ask for nothing
  have hnothing : (∃ n m, Sound w₀ (l.step e) asked n m) → ∃ more n m, Sound w₀ (l.step e) (asked ++ more) n m ∧ l.Adds e more := by
    rintro ⟨n, m, h⟩
    exact ⟨[], n, m, by rwa [List.append_nil], .inl rfl⟩
  cases e with
  | request now r =>
    rcases call_session l.client now r with hsame | ⟨hreach, hadm, hsends⟩
    · refine hnothing ⟨n, m, ?_, h.down.session ?_⟩
      · change Upstream w₀ l.worker (l.client.call now r).2.session l.carried asked n
        rw [hsame]
        exact h.up
      · rw [hsame]
        exact h.down.hears
    · obtain ⟨more, n', m', hsound, horders⟩ := h.op (hc hreach hadm) (message_fits hreach.1 _) hsends
      refine ⟨more, n', m', hsound, horders.imp_right ?_⟩
      rintro ⟨hactive, msg, hmsg, hmore⟩
      cases hmsg
      exact ⟨hactive, _, .inr ⟨now, r, rfl, hreach, hadm, rfl⟩, hmore⟩
  | session op =>
    obtain ⟨more, n', m', hsound, horders⟩ := h.op (c := (l.step (.session op)).client) hc.1 hc.2.1 rfl
    refine ⟨more, n', m', hsound, horders.imp_right ?_⟩
    rintro ⟨hactive, msg, rfl, hmore⟩
    exact ⟨hactive, msg, .inl rfl, hmore⟩
  | grant k =>
    refine hnothing ⟨n, m, h.up.client ⟨h.up.integral.noErrors.1, ?_⟩ rfl rfl rfl, h.down.session ?_⟩
    · intro a ha
      rcases List.mem_append.1 ha with ha | ha
      · exact h.up.integral.noErrors.2 a ha
      · exact ⟨k, List.mem_singleton.1 ha⟩
    · exact ⟨h.down.hears.isOpen, h.down.hears.left, h.down.hears.calls, h.down.hears.messages⟩
  | carry k => exact hnothing ⟨n, m, h.up.carry k, h.down.worker _⟩
  | turn =>
    obtain ⟨n', hup⟩ := h.up.turn
    exact hnothing ⟨n', m, hup, h.down.worker _⟩
  | heartbeat => exact hnothing ⟨n, m, h.up.heartbeat, h.down.worker _⟩
  | deliver k =>
    refine hnothing ⟨n, m, ?_, h.down.deliver k⟩
    unfold Link.step
    dsimp only
    split
    · exact h.up
    · exact h.up.client h.up.integral.noErrors rfl rfl rfl
  | hangUp =>
    refine hnothing ⟨n, m, ?_, h.down.hangUp⟩
    unfold Link.step
    dsimp only
    split
    · exact h.up.client h.up.integral.noErrors rfl rfl rfl
    · exact h.up

theorem Fresh.sound (h : Fresh l) : Sound l.worker l [] 0 0 := by
  have hlog := h.session.log
  have hwire := h.session.wire
  refine ⟨⟨h.session.integral h.noErrors, ?_, ?_, ?_, rfl⟩, ?_, ?_, ?_⟩
  · rw [hlog]
    rfl
  · rw [h.carried]
    exact Nat.zero_le _
  · rw [h.inbox, hwire, h.session.outPending, List.drop_nil]
    exact Backlog.nil _
  · rw [h.sent]
    exact List.forall_mem_nil _
  · rw [h.delivered]
    exact Nat.zero_le _
  · have houtput : l.output = [] := by rw [output, h.sent]; rfl
    refine ⟨h.noErrors.1, ?_, ?_, ?_⟩
    · rw [houtput, h.session.inBuffer, h.recvs, h.sent, List.drop_nil]
      exact Backlog.nil _
    · rw [hlog, h.sent]
      rfl
    · rw [hlog, h.sent]
      rfl

theorem Sound.run (h : Sound w₀ l asked n m) {events : List LinkEvent} (hrun : AllAlong Link.step Careful l events) :
    ∃ asked n m, Sound w₀ (StreamKit.run Link.step l events) asked n m := by
  refine run_inv (fun l => ∃ asked n m, Sound w₀ l asked n m) ?_ ⟨asked, n, m, h⟩ hrun
  rintro l e ⟨asked, n, m, h⟩ hc
  obtain ⟨more, n', m', hsound, -⟩ := h.step hc
  exact ⟨_, n', m', hsound⟩

end Sound

/-! ## What lies behind a payload -/

/-- `step`, in a memory with the second behind the payload that the gateway takes. -/
def stepIn (l : Link) (x : LinkEvent × Bytes) : Link :=
  match x.1 with
  | .turn => { l with worker := l.worker.stepIn (.turn, x.2) }
  | e => l.step e

/-- The client counts the quotes that it sends. -/
theorem blob_held {args : MassQuoteArgs} (h : args.entries.length ≤ maxQuoteEntries) (tok : OrderToken) :
    Gateway.CountHeld (args.blob tok) := by
  have hheader : MassQuoteHeader.read (args.blob tok) = args.header tok := MassQuoteHeader.format.get_put (args.header tok) _
  have hcount : Gateway.quoteCount (args.blob tok) = args.entries.length := by
    rw [Gateway.quoteCount, hheader]
    have hsmall : args.entries.length < UInt16.size := Nat.lt_of_le_of_lt h (by decide)
    exact UInt16.toNat_ofNat_of_lt' hsmall
  intro _ _
  rw [hcount, length_blob]

theorem message_held {r : OuchClient.Request} (h : r.illegal = false) (tok : OrderToken) :
    Gateway.CountHeld (r.message tok).bytes := by
  have hother : ∀ (type : UInt8) {payload : Bytes}, type ≠ MsgType.massQuote → payload.head? = some type →
      Gateway.CountHeld payload :=
    fun _ _ hne hhead hquote => absurd (Option.some.inj (hhead.symm.trans hquote)) hne
  cases r with
  | place args => exact hother MsgType.enterOrder (by decide) rfl
  | replace args => exact hother MsgType.replaceOrder (by decide) rfl
  | cancelByToken token => exact hother MsgType.cancelOrder (by decide) rfl
  | cancelByOrderId book side id => exact hother MsgType.cancelByOrderId (by decide) rfl
  | massQuote args =>
    have hentries : ¬ (args.entries = [] ∨ maxQuoteEntries < args.entries.length) := of_decide_eq_false h
    exact blob_held (Nat.not_lt.1 (not_or.1 hentries).2) tok

section Memory

variable {w₀ : Worker} {l : Link} {asked : List Packet} {n m : Nat}

/-- Both ends, where no request counts more quotes than it holds. -/
def SoundHeld (w₀ : Worker) (l : Link) : Prop :=
  ∃ asked n m, Sound w₀ l asked n m ∧ ∀ payload ∈ payloads asked, Gateway.CountHeld payload

theorem SoundHeld.step (h : SoundHeld w₀ l) {e : LinkEvent} (hc : l.Careful e) : SoundHeld w₀ (l.step e) := by
  obtain ⟨asked, n, m, hsound, hheld⟩ := h
  obtain ⟨more, n', m', hsound', hadds⟩ := hsound.step hc
  refine ⟨asked ++ more, n', m', hsound', ?_⟩
  rw [Ouch.OuchSession.payloads_append, List.forall_mem_append]
  refine ⟨hheld, ?_⟩
  rcases hadds with hnone | ⟨-, msg, hands, hmore⟩
  · rw [hnone]
    exact List.forall_mem_nil _
  · rw [hmore, List.forall_mem_singleton]
    rcases hands with rfl | ⟨now, r, rfl, hreach, -, rfl⟩
    · exact hc.2.2
    · exact message_held hreach.1 _

/-- So what the gateway takes is no less than it says. -/
theorem SoundHeld.holds (h : SoundHeld w₀ l) : l.worker.Holds .turn := by
  obtain ⟨asked, n, m, hsound, hheld⟩ := h
  rintro - ⟨r, rest⟩ hnext htype
  obtain ⟨p, hp, rfl, -⟩ := hsound.up.left.next packets nextPacket_packet hnext
  exact hheld _ (List.mem_map.2 ⟨p, List.mem_filter.2 ⟨List.mem_of_getElem? hp, decide_eq_true htype⟩, rfl⟩)

theorem SoundHeld.stepIn_eq (h : SoundHeld w₀ l) (x : LinkEvent × Bytes) : l.stepIn x = l.step x.1 := by
  obtain ⟨e, behind⟩ := x
  cases e with
  | turn =>
    unfold stepIn Link.step
    dsimp only
    rw [l.worker.stepIn_eq (.turn, behind) h.holds]
  | request now r => rfl
  | session op => rfl
  | grant k => rfl
  | carry k => rfl
  | heartbeat => rfl
  | deliver k => rfl
  | hangUp => rfl

/-- What lies behind the payloads does not matter to a careful client. -/
theorem Fresh.run_stepIn (h : Fresh l) {events : List (LinkEvent × Bytes)}
    (hrun : AllAlong Link.step Careful l (events.map Prod.fst)) :
    StreamKit.run stepIn l events = StreamKit.run Link.step l (events.map Prod.fst) :=
  run_map_eq (f := Prod.fst) (SoundHeld l.worker) (fun _ _ h hc => h.step hc) (fun _ x h _ => h.stepIn_eq x)
    ⟨[], 0, 0, h.sound, List.forall_mem_nil _⟩ hrun

end Memory

/-! ## The gateway called directly -/

/-- What the gateway makes of everything the client asked its session to write,
when it is handed over at once. -/
def direct (w₀ : Worker) (l : Link) : List Packet × Gateway × LoginDesk :=
  let asked := (Ouch.requests l.session.log).flatten
  connection w₀.gateway w₀.desk asked.length asked

/-- Both ends of a connection, compared with direct calls. -/
structure InOrder (w₀ : Worker) (l : Link) : Prop where
  /-- The gateway's answers are the first of those to everything that was asked. -/
  answers : Worker.answers l.worker.sent <+: (direct w₀ l).1
  /-- The packets dispatched are the first of those that the gateway wrote. -/
  dispatched : Ouch.dispatched l.session.log <+: l.worker.sent.map call
  /-- Each server message among them has reached its handler, once and in order. -/
  messages : Ouch.messages l.session.log <+: l.worker.sent.filterMap message
  /-- A poll finds nothing wrong with what comes. -/
  sound : OuchSession.protocolErrors [l.session.pollIo.1] = []
  /-- Once nothing is on its way, all of it is answered and handled. -/
  settled : l.Settled → Worker.answers l.worker.sent = (direct w₀ l).1 ∧ l.worker.gateway = (direct w₀ l).2.1 ∧
    Ouch.dispatched l.session.log = l.worker.sent.map call ∧ Ouch.messages l.session.log = l.worker.sent.filterMap message

theorem Fresh.bare {l : Link} (h : Fresh l) : l.worker.bare = { gateway := l.worker.gateway, desk := l.worker.desk } := by
  rw [Worker.bare, h.sent, h.phase]
  rfl

theorem Sound.direct_eq {l₀ l : Link} {asked : List Packet} {n m : Nat} (h : Sound l₀.worker l asked n m) (h₀ : Fresh l₀) :
    let w := ((asked.drop n).map reading).foldl Worker.take l.worker.bare
    direct l₀.worker l = (w.sent, w.gateway, w.desk) := by
  have hstream : (Ouch.requests l.session.log).flatten = asked.flatMap Packet.encode := by
    rw [h.up.asks, List.flatMap_def]
  have hframes : packets.frames (asked.flatMap Packet.encode) = asked.map reading := by
    have hsplit := packets.split_encoded Packet.encode reading asked [] (fun p _ ys => nextPacket_packet p ys)
      packets.next_nil
    rw [List.append_nil, Splitter.split_eq, Prod.mk.injEq] at hsplit
    exact hsplit.1
  have hwhole := Worker.connection_eq l₀.worker.gateway l₀.worker.desk (packets.length_frames_le (asked.flatMap Packet.encode))
  dsimp only at hwhole
  rw [direct, hstream, hwhole, hframes]
  have hcut : asked.map reading = (asked.take n).map reading ++ (asked.drop n).map reading := by
    rw [← List.map_append, List.take_append_drop]
  rw [hcut, List.foldl_append, ← h₀.bare, ← h.up.bare]

theorem Sound.inOrder {l₀ l : Link} {asked : List Packet} {n m : Nat} (h : Sound l₀.worker l asked n m) (h₀ : Fresh l₀) :
    InOrder l₀.worker l := by
  have hdirect := h.direct_eq h₀
  dsimp only at hdirect
  have hears := h.down.hears
  refine ⟨?_, ?_, ?_, (hears.poll h.down.sound).2, ?_⟩
  · rw [hdirect]
    exact l.worker.bare.sent_takes _
  · rw [hears.calls, List.map_take]
    exact List.take_prefix _ _
  · rw [hears.messages]
    exact (List.take_prefix m _).filterMap _
  · intro hsettled
    have htaken : ((asked.drop n).map reading).foldl Worker.take l.worker.bare = l.worker.bare := by
      rcases hsettled.taken with hclosed | hnone
      · exact @Worker.take_closed l.worker.bare hclosed _
      · have hleft := h.up.left
        rw [hsettled.carried, List.drop_length, hsettled.outPending, List.append_nil, List.append_nil] at hleft
        have hall := hleft.done packets nextPacket_packet hnone
        rw [List.drop_eq_nil_of_le (Nat.le_of_eq hall.symm)]
        rfl
    have hleft := hears.left
    rw [hsettled.recvs, hsettled.delivered, List.drop_length, List.append_nil] at hleft
    have hall := hleft.done soup soup_next_packet (by rw [OuchSession.answered]; simpa using hsettled.inBuffer)
    rw [hdirect, htaken]
    refine ⟨rfl, rfl, ?_, ?_⟩
    · rw [hears.calls, hall, List.take_length]
    · rw [hears.messages, hall, List.take_length]

/-- In every run of a careful client, however the bytes are cut up and delayed both
ways, and whatever lies behind a payload: what the gateway answers is what it would
answer to direct calls, and what reaches the client's handlers is that, once, in
order and without a fault; and nothing is missing once nothing is on its way. -/
theorem link_in_order {l : Link} (h : Fresh l) (events : List (LinkEvent × Bytes))
    (hrun : AllAlong step Careful l (events.map Prod.fst)) : InOrder l.worker (StreamKit.run stepIn l events) := by
  obtain ⟨asked, n, m, hsound⟩ := h.sound.run hrun
  rw [h.run_stepIn hrun]
  exact hsound.inOrder h

/-- A client and a gateway before the first call. -/
def idle : Link where
  client := .create (.create {} { reading := fun _ => 0 } { username := ascii "OUCH01", password := ascii "123456" }
    Soup.heartbeatSendNs) (Domain.Throttler.create 10 10) {} (ascii "C-")
  worker := { gateway := { wallNs := { reading := fun _ => 0 } } }

theorem idle_fresh : Fresh idle :=
  ⟨⟨rfl, rfl, rfl, rfl, rfl, rfl, rfl, rfl⟩, ⟨rfl, fun _ ha => absurd ha List.not_mem_nil⟩, rfl, rfl, rfl, rfl, rfl, rfl⟩

/-- The login goes over in two pieces, and its answer in three. -/
def loggingIn : List LinkEvent :=
  [.grant 20, .session .beginLogin, .carry 10, .turn, .grant 40, .session .pollIo, .carry 60, .turn, .heartbeat,
    .deliver 2, .session .pollIo, .deliver 30, .deliver 30, .session .pollIo]

theorem careful_session {l : Link} {op : OuchSession.Op} (h : l.session.WritesInTurn op) (hop : Fits op ∧ Held op) :
    l.Careful (.session op) := ⟨h, hop⟩

theorem loggingIn_careful : AllAlong step Careful idle loggingIn := by
  refine ⟨trivial, careful_session (by decide +kernel) ⟨trivial, trivial⟩, trivial, trivial, trivial, ?_⟩
  refine ⟨careful_session (by decide +kernel) ⟨trivial, trivial⟩, trivial, trivial, trivial, trivial, ?_⟩
  refine ⟨careful_session (by decide +kernel) ⟨trivial, trivial⟩, trivial, trivial, ?_⟩
  exact ⟨careful_session (by decide +kernel) ⟨trivial, trivial⟩, trivial⟩

theorem link_in_order_loggingIn : InOrder idle.worker (StreamKit.run stepIn idle (loggingIn.map fun e => (e, [7, 7]))) :=
  link_in_order idle_fresh (loggingIn.map fun e => (e, [7, 7])) loggingIn_careful

end Link

end BistColo.Mock
