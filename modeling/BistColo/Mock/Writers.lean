import BistColo.Mock.LifeCycle
import BistColo.StreamKit.Interleaving
/-!
# Two writers on one socket

The worker thread answers requests and sends heartbeats, the runner's thread
cancels the resting orders, and both write to the client. `send_sequenced`
writes the header of a packet and then its payload, with no lock around the
two, so what the client receives is an interleaving of writes and not of
packets. `whole_packets_iff` says that its stream falls into packets exactly
if no header is cut off from its payload.
-/

open StreamKit

namespace BistColo.Mock

open Soup Ouch

/-! ## Answers start with their type -/

namespace Reply

def messageType : Reply → UInt8
  | accepted m => m.messageType
  | rejected m => m.messageType
  | replaced m => m.messageType
  | canceled m => m.messageType
  | massQuoteAck m => m.messageType
  | massQuoteRejection m => m.messageType

theorem head_bytes (r : Reply) : r.bytes.head? = some r.messageType := by
  cases r with
  | accepted m => exact head_put OrderAccepted.format OrderAccepted.messageType (fun _ => rfl) (by decide) m
  | rejected m => exact head_put OrderRejected.format OrderRejected.messageType (fun _ => rfl) (by decide) m
  | replaced m => exact head_put OrderReplaced.format OrderReplaced.messageType (fun _ => rfl) (by decide) m
  | canceled m => exact head_put OrderCanceled.format OrderCanceled.messageType (fun _ => rfl) (by decide) m
  | massQuoteAck m => exact head_put MassQuoteAck.format MassQuoteAck.messageType (fun _ => rfl) (by decide) m
  | massQuoteRejection m => exact head_put MassQuoteRejection.format MassQuoteRejection.messageType (fun _ => rfl) (by decide) m

/-- A type byte that no length field starts with. -/
def Marked (r : Reply) : Prop := r.messageType ≠ 0

theorem marked_singleton {r : Reply} (h : r.messageType ≠ 0) : ∀ r' ∈ [r], r'.Marked := by
  intro r' hr'
  rw [List.mem_singleton.1 hr']
  exact h

end Reply

namespace Gateway

open Reply

theorem rejectOrder_marked (g : Gateway) (eo : EnterOrder) (code : Int32) : ∀ r ∈ (g.rejectOrder eo code).1, r.Marked :=
  marked_singleton (by decide : MsgType.orderRejected ≠ 0)

theorem enterOrder_marked (g : Gateway) (eo : EnterOrder) : ∀ r ∈ (g.enterOrder eo).1, r.Marked := by
  unfold enterOrder
  split
  · exact g.rejectOrder_marked eo _
  · dsimp only
    split
    · exact (g.see eo.orderToken).rejectOrder_marked eo _
    · exact marked_singleton (by decide : MsgType.orderAccepted ≠ 0)

theorem cancelOrder_marked (g : Gateway) (co : CancelOrder) : ∀ r ∈ (g.cancelOrder co).1, r.Marked := by
  obtain ⟨⟨now, hcanceled⟩, -⟩ := g.cancelOrder_spec co
  rw [hcanceled]
  exact marked_singleton (by decide : MsgType.orderCanceled ≠ 0)

theorem quoteEntry_marked (g : Gateway) (token : OrderToken) (e : QuoteEntry) :
    ∀ r ∈ (g.quoteEntry token e).1, r.Marked := by
  unfold quoteEntry
  split
  · exact marked_singleton (by decide : MsgType.massQuoteRejection ≠ 0)
  · have hack : MsgType.massQuoteAck ≠ 0 := by decide
    exact List.forall_mem_cons.2 ⟨hack, marked_singleton hack⟩

theorem quoteEntries_marked (g : Gateway) (token : OrderToken) (es : List QuoteEntry) :
    ∀ r ∈ (g.quoteEntries token es).1, r.Marked := by
  induction es generalizing g with
  | nil => exact List.forall_mem_nil _
  | cons e es ih => exact List.forall_mem_append.2 ⟨g.quoteEntry_marked token e, ih _⟩

theorem handlePayload_marked (g : Gateway) (payload : Bytes) : ∀ r ∈ (g.handlePayload payload).1, r.Marked := by
  unfold handlePayload
  split
  · exact List.forall_mem_nil _
  · split
    · split
      · exact List.forall_mem_nil _
      · exact g.enterOrder_marked _
    · split
      · split
        · exact List.forall_mem_nil _
        · exact g.cancelOrder_marked _
      · split
        · split
          · exact List.forall_mem_nil _
          · exact marked_singleton (by decide : MsgType.orderCanceled ≠ 0)
        · split
          · split
            · exact List.forall_mem_nil _
            · exact marked_singleton (by decide : MsgType.orderReplaced ≠ 0)
          · split
            · split
              · exact List.forall_mem_nil _
              · exact g.quoteEntries_marked _ _
            · exact List.forall_mem_nil _

/-- The answers of an inactivation are OrderCanceleds. -/
theorem inactivateAllResting_marked (g : Gateway) (clientFd : Int32) (snapshot : List (OrderToken × RestingOrder)) :
    ∀ r ∈ (g.inactivateAllResting clientFd snapshot).replies, r.Marked := by
  have hloop : ∀ (snapshot : List (OrderToken × RestingOrder)) (g : Gateway),
      ∀ r ∈ (g.emitInactivated snapshot).1, r.Marked := by
    intro snapshot
    induction snapshot with
    | nil => exact fun _ => List.forall_mem_nil _
    | cons p snapshot ih =>
      intro g
      exact List.forall_mem_cons.2 ⟨(by decide : MsgType.orderCanceled ≠ 0), ih _⟩
  unfold inactivateAllResting
  split
  · exact List.forall_mem_nil _
  · exact hloop snapshot _

end Gateway

/-! ## Writes -/

/-- What a thread sends: an answer as a sequenced packet, or a heartbeat. -/
inductive Send
  | sequenced (r : Reply)
  | heartbeat
deriving DecidableEq

/-- One call of `write_all`. -/
inductive Write
  | header (r : Reply)
  | payload (r : Reply)
  | heartbeat
deriving DecidableEq

theorem length_nil_fits : ([] : Bytes).length ≤ 65534 := Nat.zero_le _

def serverHeartbeat : Packet := ⟨Pkt.serverHeartbeat, [], length_nil_fits⟩

namespace Send

/-- `send_sequenced` and `send_heartbeat` -/
def writes : Send → List Write
  | sequenced r => [.header r, .payload r]
  | heartbeat => [.heartbeat]

def packet : Send → Packet
  | sequenced r => r.packet
  | heartbeat => serverHeartbeat

def Marked : Send → Prop
  | sequenced r => r.Marked
  | heartbeat => True

theorem writes_ne_nil (b : Send) : b.writes ≠ [] := by
  cases b with
  | sequenced r => exact List.cons_ne_nil _ _
  | heartbeat => exact List.cons_ne_nil _ _

end Send

namespace Write

def bytes : Write → Bytes
  | header r => r.packet.header.bytes
  | payload r => r.bytes
  | heartbeat => serverHeartbeat.encode

end Write

section Schedules

variable {τ : Type*}

/-- What the client receives. -/
def stream (s : List (τ × Write)) : Bytes := s.flatMap fun p => p.2.bytes

theorem stream_heartbeat (t : τ) (s : List (τ × Write)) :
    stream ((t, .heartbeat) :: s) = Send.heartbeat.packet.encode ++ stream s := rfl

theorem stream_packet (t : τ) (r : Reply) (s : List (τ × Write)) :
    stream ((t, .header r) :: (t, .payload r) :: s) = (Send.sequenced r).packet.encode ++ stream s := by
  rw [Packet.encode, List.append_assoc]
  rfl

theorem stream_header (t : τ) (r : Reply) (s : List (τ × Write)) :
    stream ((t, .header r) :: s) = r.packet.header.bytes ++ stream s := rfl

/-- Each header is followed by its payload, so no other write stands between them. -/
def Unbroken : List (τ × Write) → Prop
  | [] => True
  | (t, .header r) :: s => s.head? = some (t, .payload r) ∧ Unbroken s
  | (_, .payload _) :: s | (_, .heartbeat) :: s => Unbroken s

variable [DecidableEq τ]

/-- The stream falls into packets, with no byte left over, and these are an
interleaving of what the writers sent. -/
def Merged (sends : τ → List Send) (bytes : Bytes) : Prop :=
  ∃ merged : List (τ × Send), Interleaves sends merged ∧
    soup.split bytes = (merged.map fun p => p.2.packet.frame, [])

/-! ## The front of a schedule -/

theorem header_bytes {h : Header} (hsmall : h.length.toNat < 256) :
    h.bytes = [0, UInt8.ofNat h.length.toNat, h.packetType] := by
  have hhigh : h.length.toNat / 256 = 0 := Nat.div_eq_of_lt hsmall
  simp [Header.bytes, beU16, toBE, hhigh]

/-- Packets are short, so their first byte is zero. -/
theorem first_byte {b : Send} {w : Write} {rest : List Write} (h : b.writes = w :: rest) :
    ∃ tail, w.bytes = 0 :: tail := by
  cases b with
  | sequenced r =>
    obtain ⟨rfl, rfl⟩ := List.cons.inj h
    have hlen := r.length_bytes_le
    have hsmall : r.packet.header.length.toNat < 256 := by
      rw [Packet.length_toNat]
      exact Nat.lt_of_le_of_lt (Nat.succ_le_succ hlen) (by decide)
    exact ⟨_, header_bytes hsmall⟩
  | heartbeat =>
    obtain ⟨rfl, rfl⟩ := List.cons.inj h
    exact ⟨_, rfl⟩

/-- A schedule of sends starts with a heartbeat, with a packet, or with a header
that the write of another thread follows. -/
theorem front {sends : τ → List Send} {t : τ} {w : Write} {s : List (τ × Write)}
    (h : Interleaves (fun t => (sends t).flatMap Send.writes) ((t, w) :: s)) :
    (∃ more, sends t = .heartbeat :: more ∧ w = .heartbeat ∧
      Interleaves (fun t' => (Function.update sends t more t').flatMap Send.writes) s) ∨
    (∃ r more s', sends t = .sequenced r :: more ∧ w = .header r ∧ s = (t, .payload r) :: s' ∧
      Interleaves (fun t' => (Function.update sends t more t').flatMap Send.writes) s') ∨
    ∃ r more u w' s', sends t = .sequenced r :: more ∧ w = .header r ∧ s = (u, w') :: s' ∧ u ≠ t ∧
      ∃ tail, w'.bytes = 0 :: tail := by
  obtain ⟨b, more, rest, hsends, hwrites, hrest⟩ := h.block Send.writes_ne_nil
  cases b with
  | heartbeat =>
    obtain ⟨rfl, rfl⟩ := List.cons.inj hwrites
    rw [List.nil_append, Interleaves.update_blocks] at hrest
    exact .inl ⟨more, hsends, rfl, hrest⟩
  | sequenced r =>
    obtain ⟨rfl, rfl⟩ := List.cons.inj hwrites
    rw [List.cons_append, List.nil_append] at hrest
    cases s with
    | nil =>
      cases hrest with
      | nil hempty =>
        have hpayload := hempty t
        rw [Function.update_self] at hpayload
        cases hpayload
    | cons p s =>
      obtain ⟨u, w'⟩ := p
      obtain ⟨tail, hlist, hnext⟩ := Interleaves.cons_iff.1 hrest
      by_cases hu : u = t
      · subst hu
        rw [Function.update_self] at hlist
        obtain ⟨rfl, rfl⟩ := List.cons.inj hlist
        rw [Function.update_idem, Interleaves.update_blocks] at hnext
        exact .inr (.inl ⟨r, more, s, hsends, rfl, rfl, hnext⟩)
      · -- the other thread stands between its sends
        rw [Function.update_of_ne hu] at hlist
        have hfirst : ∃ tail, w'.bytes = 0 :: tail := by
          cases hsu : sends u with
          | nil =>
            rw [hsu] at hlist
            cases hlist
          | cons b' more' =>
            rw [hsu, List.flatMap_cons] at hlist
            cases hb : b'.writes with
            | nil => exact absurd hb b'.writes_ne_nil
            | cons w'' rest' =>
              rw [hb, List.cons_append] at hlist
              obtain ⟨rfl, -⟩ := List.cons.inj hlist
              exact first_byte hb
        exact .inr (.inr ⟨r, more, u, w', s, hsends, rfl, rfl, hu, hfirst⟩)

/-- Behind a header the zero that starts a packet is taken for a payload. -/
theorem cut_frame {r : Reply} {bytes : Bytes} {f : Frame} {rest : Bytes}
    (h : soup.next (r.packet.header.bytes ++ 0 :: bytes) = some (f, rest)) : f.body.head? = some 0 := by
  obtain ⟨-, -, rfl, -⟩ := Frame.next_eq_some.1 h
  have hne : r.bytes ≠ [] := by
    intro hnil
    have hhead := r.head_bytes
    rw [hnil] at hhead
    cases hhead
  have hpos : 0 < r.packet.payload.length := List.length_pos_iff.2 hne
  have hdrop : (r.packet.header.bytes ++ 0 :: bytes).drop headerLen = 0 :: bytes :=
    List.drop_left' (Header.length_bytes _)
  dsimp only
  rw [Header.read_bytes, Header.packetSize, Packet.length_toNat, List.drop_take, hdrop]
  have hroom : r.packet.payload.length + 1 + 2 - headerLen ≠ 0 := by
    rw [headerLen]
    omega
  rw [List.head?_take, if_neg hroom]
  rfl

/-! ## Whole packets -/

theorem merged_cons {sends : τ → List Send} {t : τ} {b : Send} {more : List Send} {bytes : Bytes}
    (hsends : sends t = b :: more) (h : Merged (Function.update sends t more) bytes) :
    Merged sends (b.packet.encode ++ bytes) := by
  obtain ⟨merged, hinter, hsplit⟩ := h
  refine ⟨(t, b) :: merged, .cons hsends hinter, ?_⟩
  rw [Splitter.split_eq, Prod.mk.injEq] at hsplit
  rw [soup.split_some (soup_next_packet b.packet bytes), hsplit.1, hsplit.2]
  rfl

/-- A schedule that breaks no packet sends an interleaving of packets. -/
theorem Unbroken.merged {sends : τ → List Send} {s : List (τ × Write)}
    (h : Interleaves (fun t => (sends t).flatMap Send.writes) s) (hu : Unbroken s) : Merged sends (stream s) := by
  induction hn : s.length using Nat.strongRecOn generalizing sends s with
  | _ n ih =>
    cases s with
    | nil =>
      cases h with
      | nil hempty =>
        refine ⟨[], .nil ?_, soup.split_none soup.next_nil⟩
        intro t
        cases hst : sends t with
        | nil => rfl
        | cons b more =>
          have hnone : (sends t).flatMap Send.writes = [] := hempty t
          rw [hst, List.flatMap_cons, List.append_eq_nil_iff] at hnone
          exact absurd hnone.1 b.writes_ne_nil
    | cons p s =>
      obtain ⟨t, w⟩ := p
      rcases front h with ⟨more, hsends, rfl, hnext⟩ | ⟨r, more, s, hsends, rfl, rfl, hnext⟩ |
        ⟨r, more, u, w', s, hsends, rfl, rfl, hut, -⟩
      · have htail := ih s.length (by simp [← hn]) hnext hu rfl
        rw [stream_heartbeat]
        exact merged_cons hsends htail
      · have htail := ih s.length (by rw [← hn, List.length_cons, List.length_cons]; omega) hnext hu.2 rfl
        rw [stream_packet]
        exact merged_cons hsends htail
      · -- the write that follows the header is not its payload
        have hnext := hu.1
        rw [List.head?_cons, Option.some.injEq, Prod.mk.injEq] at hnext
        exact absurd hnext.1 hut

/-- A stream that falls into packets, none with a payload that starts with a
zero, was not broken. -/
theorem unbroken_of_frames {sends : τ → List Send} {s : List (τ × Write)}
    (h : Interleaves (fun t => (sends t).flatMap Send.writes) s) (hrest : soup.rest (stream s) = [])
    (hframes : ∀ f ∈ soup.frames (stream s), f.body.head? ≠ some 0) : Unbroken s := by
  induction hn : s.length using Nat.strongRecOn generalizing sends s with
  | _ n ih =>
    cases s with
    | nil => trivial
    | cons p s =>
      obtain ⟨t, w⟩ := p
      rcases front h with ⟨more, hsends, rfl, hnext⟩ | ⟨r, more, s, hsends, rfl, rfl, hnext⟩ |
        ⟨r, more, u, w', s, hsends, rfl, rfl, -, tail, hw'⟩
      · have hpacket := soup_next_packet Send.heartbeat.packet (stream s)
        rw [stream_heartbeat, soup.rest_some hpacket] at hrest
        rw [stream_heartbeat, soup.frames_some hpacket] at hframes
        have htail := ih s.length (by simp [← hn]) hnext hrest (fun f hf => hframes f (List.mem_cons_of_mem _ hf)) rfl
        exact htail
      · have hpacket := soup_next_packet (Send.sequenced r).packet (stream s)
        rw [stream_packet, soup.rest_some hpacket] at hrest
        rw [stream_packet, soup.frames_some hpacket] at hframes
        have htail := ih s.length (by rw [← hn, List.length_cons, List.length_cons]; omega) hnext hrest
          (fun f hf => hframes f (List.mem_cons_of_mem _ hf)) rfl
        exact ⟨rfl, htail⟩
      · -- the header takes the next packet's length for its payload
        have hbytes : stream ((t, .header r) :: (u, w') :: s) =
            r.packet.header.bytes ++ 0 :: (tail ++ stream s) := by
          rw [stream_header]
          exact congrArg (r.packet.header.bytes ++ ·) (congrArg (· ++ stream s) hw')
        rw [hbytes] at hrest hframes
        cases hcut : soup.next (r.packet.header.bytes ++ 0 :: (tail ++ stream s)) with
        | none =>
          rw [soup.rest_none hcut] at hrest
          simp at hrest
        | some q =>
          rw [soup.frames_some hcut] at hframes
          exact absurd (cut_frame hcut) (hframes q.1 List.mem_cons_self)

/-- The stream of a schedule falls into the packets that were sent exactly if
no header is cut off. -/
theorem merged_iff_unbroken {sends : τ → List Send} (hmarked : ∀ t, ∀ b ∈ sends t, b.Marked) {s : List (τ × Write)}
    (h : Interleaves (fun t => (sends t).flatMap Send.writes) s) : Merged sends (stream s) ↔ Unbroken s := by
  constructor
  · rintro ⟨merged, hinter, hsplit⟩
    rw [Splitter.split_eq, Prod.mk.injEq] at hsplit
    refine unbroken_of_frames h hsplit.2 ?_
    rw [hsplit.1]
    intro f hf
    obtain ⟨p, hp, rfl⟩ := List.mem_map.1 hf
    have hb := hmarked p.1 p.2 (hinter.mem p hp)
    cases hsend : p.2 with
    | heartbeat => nofun
    | sequenced r =>
      rw [hsend] at hb
      intro hzero
      have hhead : (Send.sequenced r).packet.frame.body.head? = some r.messageType := r.head_bytes
      rw [hhead, Option.some.injEq] at hzero
      exact hb hzero
  · exact Unbroken.merged h

end Schedules

/-! ## The two threads -/

/-- A turn of the worker: a payload handled, with the gateway as its lock finds
it, or a heartbeat. -/
inductive WorkerTurn
  | handle (g : Gateway) (payload : Bytes)
  | heartbeat

def WorkerTurn.sends : WorkerTurn → List Send
  | handle g payload => (g.handlePayload payload).1.map .sequenced
  | heartbeat => [.heartbeat]

/-- A call of the runner's, with the gateway as its lock finds it. -/
structure InactivateCall where
  gateway : Gateway
  clientFd : Int32
  snapshot : List (OrderToken × RestingOrder)

def InactivateCall.sends (c : InactivateCall) : List Send :=
  (c.gateway.inactivateAllResting c.clientFd c.snapshot).replies.map .sequenced

inductive Thread
  | worker
  | runner
deriving DecidableEq

/-- What the threads send. -/
def threadSends (turns : List WorkerTurn) (calls : List InactivateCall) : Thread → List Send
  | .worker => turns.flatMap WorkerTurn.sends
  | .runner => calls.flatMap InactivateCall.sends

theorem threadSends_marked (turns : List WorkerTurn) (calls : List InactivateCall) (t : Thread) :
    ∀ b ∈ threadSends turns calls t, b.Marked := by
  have hreplies : ∀ rs : List Reply, (∀ r ∈ rs, r.Marked) → ∀ b ∈ rs.map Send.sequenced, b.Marked := by
    intro rs hrs b hb
    obtain ⟨r, hr, rfl⟩ := List.mem_map.1 hb
    exact hrs r hr
  intro b hb
  cases t with
  | worker =>
    obtain ⟨turn, -, hb⟩ := List.mem_flatMap.1 hb
    cases turn with
    | handle g payload => exact hreplies _ (g.handlePayload_marked payload) b hb
    | heartbeat =>
      rw [List.mem_singleton.1 hb]
      trivial
  | runner =>
    obtain ⟨c, -, hb⟩ := List.mem_flatMap.1 hb
    exact hreplies _ (c.gateway.inactivateAllResting_marked c.clientFd c.snapshot) b hb

/-- For every schedule of the two threads' writes, the client receives an
interleaving of their packets exactly if no write of one falls between a header
and a payload of the other. -/
theorem whole_packets_iff (turns : List WorkerTurn) (calls : List InactivateCall) (s : List (Thread × Write))
    (h : Interleaves (fun t => (threadSends turns calls t).flatMap Send.writes) s) :
    Merged (threadSends turns calls) (stream s) ↔ Unbroken s :=
  merged_iff_unbroken (threadSends_marked turns calls) h

/-- The answer to a cancel by order id. -/
def answer : Reply := .canceled ⟨MsgType.orderCanceled, 0, zeros 14, 70616, Side.buy.toWire, 7, 1⟩

/-- The OrderCanceled of an inactivation. -/
def inactivation : Reply := .canceled
  ⟨MsgType.orderCanceled, 0, TradingDay.dayRest.1, TradingDay.dayRest.2.orderBookId, TradingDay.dayRest.2.side,
    TradingDay.dayRest.2.orderId, 4⟩

/-- A gateway at which one order rests. -/
def oneOrder : Gateway := TradingDay.newGateway.rest TradingDay.dayRest.1 TradingDay.dayRest.2

def oneTurn : List WorkerTurn :=
  [.handle oneOrder (CancelByOrderId.mk MsgType.cancelByOrderId 70616 Side.buy.toWire 7).bytes]

def oneCall : List InactivateCall := [⟨oneOrder, 5, [TradingDay.dayRest]⟩]

/-- One packet after the other. -/
def packetsInTurn : List (Thread × Write) := [(.worker, .header answer), (.worker, .payload answer),
  (.runner, .header inactivation), (.runner, .payload inactivation)]

/-- The runner's packet falls between the worker's header and payload. -/
def packetInPacket : List (Thread × Write) := [(.worker, .header answer), (.runner, .header inactivation),
  (.runner, .payload inactivation), (.worker, .payload answer)]

def oneOrderWrites : Thread → List Write
  | .worker => [.header answer, .payload answer]
  | .runner => [.header inactivation, .payload inactivation]

theorem oneTurn_writes : (fun t => (threadSends oneTurn oneCall t).flatMap Send.writes) = oneOrderWrites := by
  funext t
  cases t with
  | worker =>
    have hanswer : (oneOrder.handlePayload
        (CancelByOrderId.mk MsgType.cancelByOrderId 70616 Side.buy.toWire 7).bytes).1 = [answer] := by decide
    simp [threadSends, oneTurn, WorkerTurn.sends, hanswer, Send.writes, oneOrderWrites]
  | runner => rfl

theorem whole_packets_iff_packetsInTurn : Merged (threadSends oneTurn oneCall) (stream packetsInTurn) := by
  refine (whole_packets_iff oneTurn oneCall packetsInTurn ?_).2 ⟨rfl, rfl, trivial⟩
  rw [oneTurn_writes]
  exact .cons rfl (.cons rfl (.cons rfl (.cons rfl (.nil fun t => by cases t <;> rfl))))

/-- The client takes the runner's header for the start of the worker's payload. -/
theorem packet_in_packet : Interleaves (fun t => (threadSends oneTurn oneCall t).flatMap Send.writes) packetInPacket ∧
    ¬ Merged (threadSends oneTurn oneCall) (stream packetInPacket) := by
  have hschedule : Interleaves (fun t => (threadSends oneTurn oneCall t).flatMap Send.writes) packetInPacket := by
    rw [oneTurn_writes]
    exact .cons rfl (.cons rfl (.cons rfl (.cons rfl (.nil fun t => by cases t <;> rfl))))
  refine ⟨hschedule, ?_⟩
  rw [merged_iff_unbroken (threadSends_marked oneTurn oneCall) hschedule]
  rintro ⟨hnext, -⟩
  cases hnext

end BistColo.Mock
