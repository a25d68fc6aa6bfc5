import BistColo.Mock.Decoding
import BistColo.Mock.Gateway
/-!
# What the gateway answers to a stream

The main loop of `OuchMockGateway::run_loop` with its answers: what it writes
for the packets it takes off a stream, its heartbeats apart, and the gateway
behind them. Whatever it is sent, a gateway answers an enter order with -800002
exactly if it has had one of the same token (`rejects_iff`), and only enter
orders teach it a token (`handlePayload_seen`).
-/

open StreamKit

namespace BistColo.Mock

open Soup Ouch

namespace Gateway

/-- The packet that answers a logout request. -/
def endOfSession : Packet := ⟨Pkt.endOfSession, [], Nat.zero_le _⟩

/-- The main loop, for at most `turns` turns that find a packet. -/
def serve (g : Gateway) : Nat → Bytes → List Packet × Gateway
  | 0, _ => ([], g)
  | turns + 1, stream =>
    match readPacket stream with
    | some (r, some stream) =>
      if r.header.packetType = Pkt.logoutRequest then ([endOfSession], g)
      else if r.header.packetType = Pkt.unsequencedData then
        let answer := g.handlePayload (r.bytes.getD [])
        let rest := answer.2.serve turns stream
        (answer.1.map Reply.packet ++ rest.1, rest.2)
      else g.serve turns stream
    -- the peer closes, or the loop throws
    | some (_, none) | none => ([], g)

/-- A packet that the client frames is read back. -/
theorem readPacket_packet (p : Packet) (rest : Bytes) :
    readPacket (p.encode ++ rest) = some (⟨p.header, UInt64.ofNat p.payload.length, some p.payload⟩, some rest) := by
  have hfits := p.fits
  have hsize : payloadSize p.header = UInt64.ofNat p.payload.length := by
    rw [payloadSize, p.length_toNat, UInt64.ofNat_add]
    exact UInt64.add_sub_cancel ..
  have hlt : p.payload.length < 2 ^ 64 := by omega
  have hnat : (UInt64.ofNat p.payload.length).toNat = p.payload.length := UInt64.toNat_ofNat_of_lt' hlt
  have hhead : readN (p.encode ++ rest) headerLen = some (p.header.bytes, p.payload ++ rest) := by
    have hlen : p.header.bytes.length = headerLen := Header.length_bytes _
    have hlong : ¬ (p.encode ++ rest).length < headerLen := by
      rw [List.length_append, p.length_encode, headerLen]
      omega
    rw [readN, if_neg hlong, Packet.encode, List.append_assoc, List.take_left' hlen, List.drop_left' hlen]
  have hbody : readN (p.payload ++ rest) p.payload.length = some (p.payload, rest) := by
    rw [readN, if_neg (by simp), List.take_left, List.drop_left]
  have hread : Header.read p.header.bytes = p.header := by simpa using Header.read_bytes p.header []
  unfold readPacket
  rw [hhead]
  dsimp only
  rw [hread, hsize, hnat, if_neg (by rw [maxVectorSize]; omega), hbody]

/-- What a client hands to its session, as a packet. -/
def unsequenced (payload : Bytes) (h : payload.length ≤ 65534) : Packet := ⟨Pkt.unsequencedData, payload, h⟩

theorem serve_unsequenced (g : Gateway) (turns : Nat) (payload : Bytes) (h : payload.length ≤ 65534) :
    g.serve (turns + 1) (unsequenced payload h).encode =
      ((g.handlePayload payload).1.map Reply.packet, (g.handlePayload payload).2) := by
  have hread := readPacket_packet (unsequenced payload h) []
  rw [List.append_nil] at hread
  have hend : ∀ (g : Gateway) (turns : Nat), g.serve turns [] = ([], g) := by
    intro g turns
    cases turns with
    | zero => rfl
    | succ turns => rfl
  have htype : (unsequenced payload h).header.packetType = Pkt.unsequencedData := rfl
  rw [serve, hread]
  dsimp only
  rw [htype, if_neg (by decide), if_pos rfl, hend, List.append_nil]
  rfl

/-! ## Tokens -/

theorem handlePayload_enterOrder (g : Gateway) {eo : EnterOrder} (h : eo.messageType = MsgType.enterOrder) :
    g.handlePayload eo.bytes = g.enterOrder eo := by
  have hread : EnterOrder.read eo.bytes = eo := (EnterOrder.format.roundTrips.1 eo).2
  have hhead : eo.bytes.head? = some MsgType.enterOrder := by rw [← h]; rfl
  unfold handlePayload
  rw [hhead]
  dsimp only
  rw [if_pos rfl, if_neg (not_not_intro eo.length_bytes), hread]

theorem enterOrder_seen (g : Gateway) (eo : EnterOrder) : (g.enterOrder eo).2.seenTokens =
    if eo.orderToken ∈ g.seenTokens then g.seenTokens else g.seenTokens ++ [eo.orderToken] := by
  unfold enterOrder
  split
  · rfl
  · dsimp only
    split
    · rfl
    · split
      · rfl
      · rfl

theorem replaceOrder_seen (g : Gateway) (ro : ReplaceOrder) : (g.replaceOrder ro).2.seenTokens = g.seenTokens := rfl

theorem cancelByOrderId_seen (g : Gateway) (cy : CancelByOrderId) : (g.cancelByOrderId cy).2.seenTokens = g.seenTokens :=
  rfl

theorem cancelOrder_seen (g : Gateway) (co : CancelOrder) : (g.cancelOrder co).2.seenTokens = g.seenTokens := by
  unfold cancelOrder
  dsimp only
  split
  · rfl
  · rfl

theorem quoteEntry_seen (g : Gateway) (token : OrderToken) (e : QuoteEntry) :
    (g.quoteEntry token e).2.seenTokens = g.seenTokens := by
  unfold quoteEntry
  split
  · rfl
  · rfl

theorem quoteEntries_seen (g : Gateway) (token : OrderToken) (es : List QuoteEntry) :
    (g.quoteEntries token es).2.seenTokens = g.seenTokens := by
  induction es generalizing g with
  | nil => rfl
  | cons e es ih =>
    rw [quoteEntries]
    dsimp only
    rw [ih, quoteEntry_seen]

/-- Only enter orders teach the gateway a token. -/
theorem handlePayload_seen (g : Gateway) {payload : Bytes} (h : payload.head? ≠ some MsgType.enterOrder) :
    (g.handlePayload payload).2.seenTokens = g.seenTokens := by
  unfold handlePayload
  split
  · rfl
  · rename_i type hhead
    have hnot : ¬ type = MsgType.enterOrder := by
      rintro rfl
      exact h hhead
    rw [if_neg hnot]
    split
    · split
      · rfl
      · exact g.cancelOrder_seen _
    · split
      · split
        · rfl
        · exact g.cancelByOrderId_seen _
      · split
        · split
          · rfl
          · exact g.replaceOrder_seen _
        · split
          · split
            · rfl
            · exact g.quoteEntries_seen _ _
          · rfl

/-! ## Duplicates -/

/-- The answer to an enter order of this token is the reject -800002. -/
def Rejects (g : Gateway) (token : OrderToken) : Prop :=
  ∀ eo : EnterOrder, eo.messageType = MsgType.enterOrder → eo.orderToken = token →
    ∃ now, (g.handlePayload eo.bytes).1 = [.rejected ⟨MsgType.orderRejected, now, token, RejectCode.tokenNotUnique⟩]

/-- An order with the token, and zeros. -/
def orderOf (token : OrderToken) : EnterOrder :=
  { EnterOrder.read [] with messageType := MsgType.enterOrder, orderToken := token }

theorem rejects_iff (g : Gateway) (token : OrderToken) : g.Rejects token ↔ token ∈ g.seenTokens := by
  constructor
  · intro h
    by_contra hnew
    obtain ⟨now, hnow⟩ := h (orderOf token) rfl rfl
    have hno : (orderOf token).orderToken ∉ g.seenTokens := hnew
    rw [handlePayload_enterOrder g rfl, enterOrder, if_neg hno] at hnow
    dsimp only at hnow
    split at hnow
    · simp [rejectOrder, RejectCode.priceOutsideLimits, RejectCode.tokenNotUnique] at hnow
    · simp at hnow
  · intro h eo htype htoken
    subst htoken
    rw [handlePayload_enterOrder g htype, enterOrder, if_pos h]
    exact ⟨_, rfl⟩

end Gateway

end BistColo.Mock
