import BistColo.Mock.Serving
import BistColo.Ouch.Booking
import BistColo.Ouch.Packets
import BistColo.Ouch.States
import BistColo.Runner.Events
/-!
# An order and its echo

What `place` is given comes back in the fields of the OrderAccepted that the
runner compares with: through the client's encoder, the framing, the gateway's
decoder and encoder, the framing again, the session's decoder and the field
extractor (`order_echo`). The transport takes a byte at least at each send and
delivers the answer in any chunks, with any of the gateway's heartbeats around
it.
-/

open StreamKit

namespace BistColo

/-! ## A socket that takes everything -/

namespace TcpSocket

/-- The socket takes a byte at least at each of the next `n` sends. -/
structure Takes (k : TcpSocket) (n : Nat) : Prop where
  isOpen : k.isOpen = true
  enough : n ≤ k.sends.length
  positive : ∀ a ∈ k.sends, ∃ m, 0 < m ∧ a = .accept m

/-- What a send loop leaves behind when everything went out. -/
structure Sent (k : TcpSocket) (buf : Bytes) (d : Drained) : Prop where
  error : d.error = none
  left : d.left = []
  wire : d.socket.wire = k.wire ++ buf

theorem Takes.drainN (fuel : Nat) {k : TcpSocket} {n : Nat} {buf : Bytes} (h : k.Takes n) (hlen : buf.length ≤ n)
    (hfuel : buf.length ≤ fuel) : Sent k buf (k.drainN fuel buf) ∧ (k.drainN fuel buf).socket.Takes (n - buf.length) := by
  induction fuel generalizing k n buf with
  | zero =>
    obtain rfl : buf = [] := List.length_eq_zero_iff.1 (Nat.le_zero.1 hfuel)
    exact ⟨⟨rfl, rfl, (List.append_nil _).symm⟩, h⟩
  | succ fuel ih =>
    by_cases hbuf : buf = []
    · subst hbuf
      exact ⟨⟨rfl, rfl, (List.append_nil _).symm⟩, h⟩
    · have hpos := List.length_pos_iff.2 hbuf
      have henough := h.enough
      obtain ⟨a, rest, hsends⟩ := List.exists_cons_of_ne_nil (List.ne_nil_of_length_pos (by omega : 0 < k.sends.length))
      obtain ⟨m, hm, rfl⟩ := h.positive a (by rw [hsends]; exact List.mem_cons_self)
      obtain ⟨j, hj⟩ : ∃ j, min m buf.length = j + 1 := Nat.exists_eq_succ_of_ne_zero (by omega)
      -- the socket takes a byte at least, and has enough answers for the rest
      have hsend : k.send buf = (.ok (j + 1), { k with sends := rest, wire := k.wire ++ buf.take (j + 1) }) := by
        rw [send, if_neg (by simp [h.isOpen]), hsends]
        dsimp only
        rw [hj]
      have htakes : Takes { k with sends := rest, wire := k.wire ++ buf.take (j + 1) } (n - (j + 1)) := by
        refine ⟨h.isOpen, ?_, fun b hb => h.positive b (by rw [hsends]; exact List.mem_cons_of_mem _ hb)⟩
        rw [hsends, List.length_cons] at henough
        dsimp only
        omega
      have hdrop : (buf.drop (j + 1)).length = buf.length - (j + 1) := List.length_drop
      have hshort : (buf.drop (j + 1)).length ≤ n - (j + 1) := by omega
      obtain ⟨hsent, hleft⟩ := ih htakes hshort (by omega)
      have hd : k.drainN (fuel + 1) buf =
          TcpSocket.drainN fuel { k with sends := rest, wire := k.wire ++ buf.take (j + 1) } (buf.drop (j + 1)) := by
        rw [TcpSocket.drainN, if_neg hbuf, hsend]
        rfl
      rw [hd]
      refine ⟨⟨hsent.error, hsent.left, ?_⟩, ?_⟩
      · rw [hsent.wire, List.append_assoc, List.take_append_drop]
      · have hcount : n - (j + 1) - (buf.drop (j + 1)).length = n - buf.length := by omega
        rwa [hcount] at hleft

end TcpSocket

namespace Ouch.OuchSession

open Soup

/-- A buffer that the socket takes whole goes out whole. -/
theorem writeBytes_takes {s : OuchSession} {n : Nat} {buf : Bytes} (h : s.socket.Takes n) (hlen : buf.length ≤ n) :
    ∃ s', s.writeBytes buf = (.ok (), s') ∧ s'.socket.wire = s.socket.wire ++ buf ∧
      s'.socket.Takes (n - buf.length) := by
  obtain ⟨hsent, htakes⟩ := TcpSocket.Takes.drainN buf.length h hlen (Nat.le_refl _)
  change TcpSocket.Sent s.socket buf (s.socket.drain buf) at hsent
  unfold writeBytes
  dsimp only
  rw [hsent.error]
  dsimp only
  rw [if_neg (not_not_intro hsent.left)]
  exact ⟨_, rfl, hsent.wire, htakes⟩

/-- A message handed to an Active session goes out as one packet. -/
theorem send_takes {s : OuchSession} {m : Outgoing} (hactive : s.state = .active) (hfits : m.bytes.length ≤ 65534)
    (h : s.socket.Takes (m.bytes.length + 3)) :
    (s.send m).1 = .ok () ∧
      (s.send m).2.socket.wire = s.socket.wire ++ (Mock.Gateway.unsequenced m.bytes hfits).encode := by
  rw [send_eq, sendUnsequenced, if_neg (not_not_intro hactive)]
  have hhdr : (makeHeader Pkt.unsequencedData (UInt16.ofNat m.bytes.length)).bytes.length = 3 := Header.length_bytes _
  have hroom : (makeHeader Pkt.unsequencedData (UInt16.ofNat m.bytes.length)).bytes.length ≤ m.bytes.length + 3 := by omega
  dsimp only
  obtain ⟨s₁, hfirst, hwire₁, htakes₁⟩ := writeBytes_takes
    (s := s.emit (.request ((makeHeader Pkt.unsequencedData (UInt16.ofNat m.bytes.length)).bytes ++ m.bytes))) h hroom
  rw [hfirst]
  dsimp only
  rw [hhdr, Nat.add_sub_cancel] at htakes₁
  obtain ⟨s₂, hsecond, hwire₂, -⟩ := writeBytes_takes htakes₁ (Nat.le_refl m.bytes.length)
  rw [hsecond, hwire₂, hwire₁, List.append_assoc]
  exact ⟨rfl, rfl⟩

end Ouch.OuchSession

namespace Runner

open Soup Ouch OuchSession OuchClient Mock

/-! ## What comes back -/

/-- The text of the order's token: the caller's, or the next one of the registry. -/
def tokenText (c : OuchClient) (args : Ouch.PlaceArgs) : Bytes :=
  if args.explicitToken ≠ [] then args.explicitToken else c.tokens.formatted (c.tokens.sequence + 1)

def isPadding (b : UInt8) : Bool := b = 32 ∨ b = 0

/-- The fields of the event that say what was ordered. -/
structure Echoes (args : Ouch.PlaceArgs) (token : Bytes) (ev : SessionEvent) : Prop where
  name : eventName ev = "order_accepted"
  token : eventField ev "token" = some ((token.take 14).rdropWhile isPadding)
  orderBookId : eventField ev "order_book_id" = some (toString args.orderBookId.toNat)
  side : eventField ev "side" = some [args.side.toWire]
  quantity : eventField ev "quantity" = some (toString args.quantity.toInt)
  price : eventField ev "price" = some (toString args.price.toInt)
  timeInForce : eventField ev "time_in_force" = some (toString args.tif.toWire.toNat)
  openClose : eventField ev "open_close" = some (toString args.openClose.toWire.toNat)
  displayQuantity : eventField ev "display_quantity" = some (toString args.displayQuantity.toInt)
  clientCategory : eventField ev "client_category" = some (toString args.category.toWire.toNat)
  offHours : eventField ev "off_hours" = some (toString args.offHours.toNat)
  texts : ∃ m, ev = .accepted m ∧ m.clientAccount = Field.pad 32 16 args.clientAccount ∧
    m.customerInfo = Field.pad 32 15 args.customerInfo ∧ m.exchangeInfo = Field.pad 32 32 args.exchangeInfo

theorem claimed_place (c : OuchClient) (args : Ouch.PlaceArgs) :
    (c.claimed (.place args)).1 = OrderToken.ofText (tokenText c args) := by
  unfold claimed tokenText
  cases h : args.explicitToken with
  | nil => simp [Request.claim, h, Domain.TokenRegistry.allocate, Domain.TokenRegistry.nextToken]
  | cons b bs => simp [Request.claim, h]

theorem trim_ofText (t : Bytes) : trimFixedAlpha (OrderToken.ofText t) = (t.take 14).rdropWhile isPadding :=
  rdropWhile_replicate rfl _ _

/-- A quantity that is not negative reads the same on the wire. -/
theorem toString_toUInt64 {q : Int64} (h : 0 ≤ q) : toString q.toUInt64.toNat = toString q.toInt := by
  have hq : (q.toUInt64.toNat : Int) = q.toInt := by
    rw [Int64.toNat_toUInt64_of_le h]
    exact Int.toNat_of_nonneg (Int64.le_iff_toInt_le.1 h)
  rw [hq]

/-- The OrderAccepted of an order's message says what was ordered. -/
theorem echoes_acceptedMessage {args : Ouch.PlaceArgs} (hq : 0 ≤ args.quantity) (hd : 0 ≤ args.displayQuantity) (token : Bytes)
    (oid now : UInt64) :
    Echoes args token (.accepted (Gateway.acceptedMessage (args.message (OrderToken.ofText token)) oid now)) where
  name := rfl
  token := congrArg some (trim_ofText token)
  orderBookId := rfl
  side := rfl
  quantity := congrArg some (toString_toUInt64 hq)
  price := rfl
  timeInForce := rfl
  openClose := rfl
  displayQuantity := congrArg some (toString_toUInt64 hd)
  clientCategory := rfl
  offHours := rfl
  texts := ⟨_, rfl, rfl, rfl, rfl⟩

/-! ## The exchange -/

/-- The client and the gateway before the order: the session is Active with
nothing waiting to go out, the throttler has a slot, the socket takes what the
order needs, and neither side has used the token. -/
structure Ready (c : OuchClient) (g : Gateway) (now : UInt64) (args : Ouch.PlaceArgs) : Prop where
  active : c.session.state = .active
  budget : c.acquires now = true
  outPending : c.session.outPending = []
  takes : c.session.socket.Takes 117
  quiet : Quiet c.session.socket.recvs
  unusedHere : ∀ t ∈ c.tokens.seen, OrderToken.ofText t ≠ OrderToken.ofText (tokenText c args)
  unusedThere : OrderToken.ofText (tokenText c args) ∉ g.seenTokens

/-- What `place` puts on the wire. -/
def written (c : OuchClient) (now : UInt64) (args : Ouch.PlaceArgs) : Bytes :=
  (c.place now args).2.session.socket.wire.drop c.session.socket.wire.length

/-- What the gateway answers to it. -/
def answer (c : OuchClient) (g : Gateway) (now : UInt64) (args : Ouch.PlaceArgs) (turns : Nat) : List Packet :=
  (g.serve (turns + 1) (written c now args)).1

/-- Heartbeats of the gateway. -/
def Beats (ps : List Packet) : Prop := ∀ p ∈ ps, p.packetType = Pkt.serverHeartbeat

theorem admits_place {c : OuchClient} {args : Ouch.PlaceArgs}
    (h : ∀ t ∈ c.tokens.seen, OrderToken.ofText t ≠ OrderToken.ofText (tokenText c args)) : c.Admits (.place args) := by
  rintro t ht hne hseen
  obtain rfl : args.explicitToken = t := Option.some.inj ht
  refine h _ hseen ?_
  rw [tokenText, if_pos hne]

/-- The message that the session is handed. -/
def ordered (c : OuchClient) (args : Ouch.PlaceArgs) : Outgoing :=
  .enterOrder (args.message (OrderToken.ofText (tokenText c args)))

theorem length_ordered (c : OuchClient) (args : Ouch.PlaceArgs) : (ordered c args).bytes.length = 114 :=
  EnterOrder.length_bytes _

/-- `place` returns the token, and hands over its message. -/
theorem place_sends {c : OuchClient} {g : Gateway} {now : UInt64} {args : Ouch.PlaceArgs} (h : Ready c g now args) :
    (c.place now args).1 = .ok (OrderToken.ofText (tokenText c args)) ∧
      (c.place now args).2.session = (c.session.send (ordered c args)).2 := by
  have hcall : c.call now (.place args) = _ := call_submits ⟨rfl, h.budget, rfl⟩ (admits_place h.unusedHere)
  rw [claimed_place] at hcall
  have hok : (c.call now (.place args)).1 = .ok () := by
    rw [hcall]
    have hfits : (ordered c args).bytes.length ≤ 65534 := by
      rw [length_ordered]
      decide
    exact (send_takes (m := ordered c args) h.active hfits (by rw [length_ordered]; exact h.takes)).1
  obtain ⟨tok, htok⟩ : ∃ tok, (c.place now args).1 = .ok tok := done_ok hok
  rw [htok, place_token htok, claimed_place]
  exact ⟨rfl, congrArg (fun p => p.2.session) hcall⟩

/-- The message goes out as one packet. -/
theorem written_eq {c : OuchClient} {g : Gateway} {now : UInt64} {args : Ouch.PlaceArgs} (h : Ready c g now args)
    (hfits : (ordered c args).bytes.length ≤ 65534) :
    written c now args = (Gateway.unsequenced (ordered c args).bytes hfits).encode := by
  rw [written, (place_sends h).2]
  rw [(send_takes h.active hfits (by rw [length_ordered]; exact h.takes)).2]
  exact List.drop_left

/-- The gateway takes the order and answers it once. -/
theorem answer_eq {c : OuchClient} {g : Gateway} {now : UInt64} {args : Ouch.PlaceArgs} (h : Ready c g now args)
    (hprice : args.price ≤ 9000) (turns : Nat) :
    ∃ oid at_, answer c g now args turns = [(Reply.accepted
      (Gateway.acceptedMessage (args.message (OrderToken.ofText (tokenText c args))) oid at_)).packet] := by
  have hfits : (ordered c args).bytes.length ≤ 65534 := by
    rw [length_ordered]
    decide
  have hnew : (args.message (OrderToken.ofText (tokenText c args))).orderToken ∉ g.seenTokens := h.unusedThere
  have hcheap : ¬ 9000 < (args.message (OrderToken.ofText (tokenText c args))).price := Int32.not_lt.2 hprice
  have hpayload : g.handlePayload (ordered c args).bytes =
      g.enterOrder (args.message (OrderToken.ofText (tokenText c args))) := g.handlePayload_enterOrder rfl
  rw [answer, written_eq h hfits, Gateway.serve_unsequenced, hpayload, Gateway.enterOrder, if_neg hnew]
  dsimp only
  rw [if_neg hcheap]
  exact ⟨_, _, rfl⟩

/-! ## The echo -/

theorem fault_beat {p : Packet} (h : p.packetType = Pkt.serverHeartbeat) : fault p = none := by
  unfold fault
  rw [h]
  rfl

theorem message_beat {p : Packet} (h : p.packetType = Pkt.serverHeartbeat) : message p = none := by
  unfold message
  rw [h]
  rfl

theorem accepted_packet (m : OrderAccepted) (h : m.messageType = MsgType.orderAccepted) :
    fault (Reply.accepted m).packet = none ∧
      message (Reply.accepted m).packet = some (.orderAccepted, m.bytes) := by
  have hpayload : (Reply.accepted m).packet.payload = m.bytes := rfl
  have hhead : m.bytes.head? = some MsgType.orderAccepted := by
    rw [← h]
    exact head_put OrderAccepted.format OrderAccepted.messageType (fun _ => rfl) (by decide) m
  obtain ⟨rest, hrest⟩ := List.head?_eq_some_iff.1 hhead
  have hlen : m.bytes.length = ServerMsg.orderAccepted.size := m.length_bytes
  have htype : (Reply.accepted m).packet.packetType = Pkt.sequencedData := rfl
  have hknown : ServerMsg.ofType MsgType.orderAccepted = some .orderAccepted := rfl
  constructor
  · unfold fault
    rw [htype, hpayload, if_neg (by decide), if_pos rfl, hrest]
    dsimp only
    rw [hknown]
    dsimp only
    rw [← hrest, if_pos hlen]
  · unfold message
    rw [htype, hpayload, if_pos rfl, hhead, Option.bind_some, hknown, Option.bind_some, if_pos hlen]

/-- For every order on a session that is ready for it, `place` returns the
order's token, the gateway answers with one OrderAccepted, the session takes
that without a Protocol error, in whatever chunks it comes and whatever of a
heartbeat was there before, and the runner reads from the event what was
ordered. -/
theorem order_echo {c : OuchClient} {g : Gateway} {now : UInt64} {args : Ouch.PlaceArgs} (h : Ready c g now args)
    (hprice : args.price ≤ 9000) (hquantity : 0 ≤ args.quantity) (hdisplay : 0 ≤ args.displayQuantity) (turns n : Nat)
    (before after : List Packet) (tail : Bytes) (hbefore : Beats before) (hafter : Beats after)
    (hdelivered : c.session.inBuffer ++ answered c.session.socket.recvs =
      (before ++ answer c g now args turns ++ after).flatMap Packet.encode ++ tail)
    (htail : soup.next tail = none) (hn : c.session.socket.recvs.count .again + 1 ≤ n) :
    ∃ am : OrderAccepted,
      (c.place now args).1 = .ok (OrderToken.ofText (tokenText c args)) ∧
      answer c g now args turns = [(Reply.accepted am).packet] ∧
      protocolErrors (results (c.place now args).2.session (List.replicate n .pollIo)) = [] ∧
      messages (run OuchSession.step (c.place now args).2.session (List.replicate n .pollIo)).log =
        messages c.session.log ++ [(.orderAccepted, am.bytes)] ∧
      Echoes args (tokenText c args) (SessionEvent.ofMessage .orderAccepted am.bytes) := by
  obtain ⟨oid, at_, hanswer⟩ := answer_eq h hprice turns
  generalize ham : Gateway.acceptedMessage (args.message (OrderToken.ofText (tokenText c args))) oid at_ = am at hanswer
  obtain ⟨hok, hsession⟩ := place_sends h
  refine ⟨am, hok, hanswer, ?_⟩
  -- the session as `place` leaves it has read nothing yet
  have hsame := sameInput_send c.session (ordered c args)
  rw [← hsession] at hsame
  have hopen : (c.place now args).2.session.socket.isOpen = true := hsame.socket.1.trans h.takes.isOpen
  have hrecvs : (c.place now args).2.session.socket.recvs = c.session.socket.recvs := hsame.socket.2.1
  have hlog : messages (c.place now args).2.session.log = messages c.session.log := by
    rw [← messages_inbound, hsame.inbound_eq, messages_inbound]
  -- the packets that come in: heartbeats around one well-formed message
  obtain ⟨hgood, hmessage⟩ := accepted_packet am (by rw [← ham]; rfl)
  have hfaults : (before ++ [(Reply.accepted am).packet] ++ after).filterMap fault = [] := by
    rw [List.filterMap_eq_nil_iff]
    intro p hp
    simp only [List.mem_append, List.mem_singleton] at hp
    rcases hp with (hp | rfl) | hp
    · exact fault_beat (hbefore p hp)
    · exact hgood
    · exact fault_beat (hafter p hp)
  have hmessages : (before ++ [(Reply.accepted am).packet] ++ after).filterMap message = [(.orderAccepted, am.bytes)] := by
    have hsilent : ∀ ps, Beats ps → ps.filterMap message = [] := by
      intro ps hps
      exact List.filterMap_eq_nil_iff.2 fun p hp => message_beat (hps p hp)
    rw [List.filterMap_append, List.filterMap_append, hsilent before hbefore, hsilent after hafter, List.nil_append,
      List.append_nil, List.filterMap_cons_some hmessage, List.filterMap_nil]
  -- so the polls hand over the message and nothing else
  have hbytes : (c.place now args).2.session.inBuffer ++ answered (c.place now args).2.session.socket.recvs =
      (before ++ [(Reply.accepted am).packet] ++ after).flatMap Packet.encode ++ tail := by
    rw [hsame.inBuffer, hrecvs, hdelivered, hanswer]
  have hpolls : pollsLeft (c.place now args).2.session (before ++ [(Reply.accepted am).packet] ++ after) ≤ n := by
    rw [pollsLeft, faults, hfaults, hrecvs, List.length_nil]
    split
    · split <;> omega
    · exact hn
  obtain ⟨hhandled, he, -⟩ := polls_packets n hopen (by rw [hrecvs]; exact h.quiet) hbytes htail hpolls
  refine ⟨he.trans hfaults, ?_, ?_⟩
  · rw [hhandled.messages, hlog, hmessages]
  · have hread : SessionEvent.ofMessage .orderAccepted am.bytes = .accepted am :=
      congrArg SessionEvent.accepted (OrderAccepted.format.roundTrips.1 am).2
    rw [hread, ← ham]
    exact echoes_acceptedMessage hquantity hdisplay (tokenText c args) oid at_

def someOrder : Ouch.PlaceArgs := { explicitToken := ascii "30", orderBookId := 70616, quantity := 200, price := 6200 }

def freshGateway : Gateway := { wallNs := { reading := fun _ => 0 } }

def someEcho : OrderAccepted := Gateway.acceptedMessage (someOrder.message (OrderToken.ofText (ascii "30"))) 1 0

def echoBytes : Bytes := (Reply.accepted someEcho).packet.encode

theorem echoBytes_nonempty : echoBytes ≠ [] := by decide

theorem echoBytes_fits : echoBytes.length ≤ 8192 := by decide +kernel

/-- A session that logs in and is then delivered the echo. -/
def echoSession : OuchSession :=
  create { sends := .accept 49 :: List.replicate 117 (.accept 1)
           recvs := [.data acceptChunk, .again, .data ⟨echoBytes, echoBytes_nonempty, echoBytes_fits⟩] }
    { reading := fun _ => 0 } { username := ascii "OUCH01", password := ascii "secret" } Soup.heartbeatSendNs

def echoClient : OuchClient :=
  OuchClient.create (run OuchSession.step echoSession [.beginLogin, .pollIo]) (Domain.Throttler.create 10 10) {} (ascii "C-")

theorem echoClient_sends : echoClient.session.socket.sends = List.replicate 117 (.accept 1) := by decide +kernel

theorem echoClient_recvs :
    echoClient.session.socket.recvs = [.data ⟨echoBytes, echoBytes_nonempty, echoBytes_fits⟩] := by
  decide +kernel

theorem echoClient_inBuffer : echoClient.session.inBuffer = [] := by decide +kernel

theorem echoClient_answer : answer echoClient freshGateway 0 someOrder 0 = [(Reply.accepted someEcho).packet] := by
  decide +kernel

theorem echoClient_ready : Ready echoClient freshGateway 0 someOrder where
  active := by decide +kernel
  budget := by decide +kernel
  outPending := by decide +kernel
  takes := by
    refine ⟨by decide +kernel, ?_, ?_⟩
    · rw [echoClient_sends, List.length_replicate]
    · intro a ha
      rw [echoClient_sends] at ha
      exact ⟨1, Nat.one_pos, List.eq_of_mem_replicate ha⟩
  quiet := by
    intro a ha
    rw [echoClient_recvs, List.mem_singleton] at ha
    exact .inr ⟨_, ha⟩
  unusedHere := nofun
  unusedThere := nofun

theorem order_echo_someOrder :
    ∃ am : OrderAccepted,
      (echoClient.place 0 someOrder).1 = .ok (OrderToken.ofText (tokenText echoClient someOrder)) ∧
      answer echoClient freshGateway 0 someOrder 0 = [(Reply.accepted am).packet] ∧
      protocolErrors (results (echoClient.place 0 someOrder).2.session (List.replicate 1 .pollIo)) = [] ∧
      messages (run OuchSession.step (echoClient.place 0 someOrder).2.session (List.replicate 1 .pollIo)).log =
        messages echoClient.session.log ++ [(.orderAccepted, am.bytes)] ∧
      Echoes someOrder (tokenText echoClient someOrder) (SessionEvent.ofMessage .orderAccepted am.bytes) := by
  refine order_echo echoClient_ready ?_ ?_ ?_ 0 1 [] [] [] nofun nofun ?_ soup.next_nil ?_
  · decide
  · decide
  · decide
  · rw [echoClient_inBuffer, echoClient_recvs, echoClient_answer]
    simp [answered, echoBytes]
  · rw [echoClient_recvs]
    decide

end Runner

end BistColo
