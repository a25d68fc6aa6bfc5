import BistColo.Ouch.Inbound
/-!
# Inbound framing

The parse loop finds in the buffer what `soup` finds in the stream: what was
dispatched and what still waits in the buffer are the packets of everything
received (`framed_run`), however it was cut into chunks. Two results follow.
`eof_dispatches_all_iff` says when the end of file costs the packets that
arrived with it. `DispatchCall.OfPacket.inside_iff` says that a dispatch stays
inside its packet exactly if the length field is not zero.
-/

open StreamKit

namespace BistColo.Ouch

open Soup

namespace OuchSession

/-! ## The packets received -/

/-- The packets of the stream are those dispatched and those in the buffer,
and the buffer ends as the stream does. -/
structure Framed (s : OuchSession) : Prop where
  frames : soup.frames s.socket.received = (dispatched s.log).map Prod.fst ++ soup.frames s.inBuffer
  rest : soup.rest s.socket.received = soup.rest s.inBuffer

theorem Framed.read {s s' : OuchSession} {bytes : Bytes} (h : Framed s) (hr : Read s s' bytes) : Framed s' := by
  have hd : dispatched s'.log = dispatched s.log := by
    rw [← dispatched_inbound, hr.inbound_eq, dispatched_inbound]
  constructor
  · rw [hr.received, hr.inBuffer, hd, soup.frames_append, soup.frames_append s.inBuffer, h.frames, h.rest,
      List.append_assoc]
  · rw [hr.received, hr.inBuffer, soup.rest_append, soup.rest_append s.inBuffer, h.rest]

theorem Framed.takePacket {s : OuchSession} {f : Frame} {rest : Bytes} (h : Framed s)
    (hn : soup.next s.inBuffer = some (f, rest)) : Framed (s.takePacket (Header.read s.inBuffer)).2 := by
  obtain ⟨hbuf, hsock, -⟩ := takePacket_spec hn
  constructor
  · rw [hsock, hbuf, dispatched_takePacket hn, h.frames, soup.frames_some hn, List.map_append, List.append_assoc]
    rfl
  · rw [hsock, hbuf, h.rest, soup.rest_some hn]

/-- Every session is framed, whatever its operations were. -/
theorem framed_run {s : OuchSession} (hfresh : s.Fresh) (ops : List Op) : Framed (run step s ops) := by
  refine inbound_run (fun _ _ _ hr h => h.read hr) (fun _ _ _ hn h => h.takePacket hn) ops ?_
  exact ⟨by simp [hfresh.received, hfresh.inBuffer, hfresh.log, dispatched, dispatchCalls],
    by rw [hfresh.received, hfresh.inBuffer]⟩

/-! ## End of file -/

/-- A poll that reads some chunks and then the end of file reports it, and
dispatches nothing: all packets received so far have been dispatched exactly
if the chunks completed none. -/
theorem eof_dispatches_all_iff {s : OuchSession} {ops : List Op} {chunks : List Chunk} {more : List RecvAnswer}
    (hfresh : s.Fresh) (hopen : (run step s ops).socket.isOpen = true)
    (hr : (run step s ops).socket.recvs = chunks.map .data ++ .eof :: more) :
    let before := run step s ops
    let after := before.pollIo
    after.1 = .error (makeError .io "eof") ∧
      after.2.socket.received = before.socket.received ++ chunks.flatMap Chunk.bytes ∧
      ((dispatched after.2.log).map Prod.fst = soup.frames after.2.socket.received ↔
        soup.next (before.inBuffer ++ chunks.flatMap Chunk.bytes) = none) := by
  intro before after
  obtain ⟨s', hread, hs', -⟩ := readSome_spec hopen hr (.eof more)
  have hpoll : after = (.error (makeError .io "eof"), s') := by
    change before.pollIo = _
    rw [pollIo, hread]
  have hframed : Framed s' := (framed_run hfresh ops).read hs'
  rw [hpoll]
  refine ⟨rfl, hs'.received, ?_⟩
  dsimp only
  rw [hframed.frames, hs'.inBuffer, ← soup.frames_eq_nil_iff]
  exact List.self_eq_append_right

/-- One EndOfSession packet. -/
def endChunk : Chunk := ⟨(Packet.mk Pkt.endOfSession [] (by decide)).encode, by decide, by decide⟩

/-- A session on a socket that delivers an EndOfSession packet and closes. -/
def closing : OuchSession :=
  create { recvs := [.data endChunk, .eof] } { reading := fun _ => 0 }
    { username := ascii "OUCH01", password := ascii "secret" } Soup.heartbeatSendNs

theorem closing_fresh : closing.Fresh := ⟨rfl, rfl, rfl, rfl, rfl, rfl, rfl, rfl⟩

theorem eof_dispatches_all_iff_closing :
    closing.pollIo.1 = .error (makeError .io "eof") ∧
      closing.pollIo.2.socket.received = closing.socket.received ++ [endChunk].flatMap Chunk.bytes ∧
      ((dispatched closing.pollIo.2.log).map Prod.fst = soup.frames closing.pollIo.2.socket.received ↔
        soup.next (closing.inBuffer ++ [endChunk].flatMap Chunk.bytes) = none) :=
  @eof_dispatches_all_iff closing [] [endChunk] [] closing_fresh rfl rfl

/-- The packet is complete and received, and `eof` is reported without it. -/
theorem eof_loses_packet :
    closing.Fresh ∧ closing.pollIo.1 = .error (makeError .io "eof") ∧
      soup.frames closing.pollIo.2.socket.received = [⟨1, Pkt.endOfSession, []⟩] ∧
      dispatched closing.pollIo.2.log = [] :=
  ⟨closing_fresh, by decide, by decide, by decide⟩

/-! ## What a dispatch reads -/

/-- Two memories that agree on a list of ranges. -/
def AgreeOn (reads : List (Nat × Nat)) (mem mem' : Bytes) : Prop := ∀ r ∈ reads, peek mem r.1 r.2 = peek mem' r.1 r.2

theorem dispatchOuch_congr (s : OuchSession) (mem mem' : Bytes) (payloadLen : UInt64)
    (h : AgreeOn (dispatchReads Pkt.sequencedData mem payloadLen) mem mem') :
    s.dispatchOuch mem payloadLen = s.dispatchOuch mem' payloadLen := by
  change AgreeOn (if payloadLen = 0 then [] else _) mem mem' at h
  unfold dispatchOuch
  split
  · rfl
  · rename_i hlen
    rw [if_neg hlen] at h
    have htype : peek mem 0 1 = peek mem' 0 1 := h (0, 1) List.mem_cons_self
    dsimp only
    rw [← htype]
    cases hm : (peek mem 0 1).head?.bind ServerMsg.ofType with
    | none => rfl
    | some m =>
      simp only [hm] at h ⊢
      split
      · rfl
      · rename_i hsize
        rw [if_neg hsize] at h
        have hbody : peek mem 0 m.size = peek mem' 0 m.size := h (0, m.size) (by simp)
        rw [hbody]

/-- Nothing but the ranges in `dispatchReads` decides what a dispatch does. -/
theorem dispatchPacket_congr (s : OuchSession) (type : UInt8) (mem mem' : Bytes) (payloadLen : UInt64)
    (h : AgreeOn (dispatchReads type mem payloadLen) mem mem') :
    s.dispatchPacket type mem payloadLen = s.dispatchPacket type mem' payloadLen := by
  by_cases hS : type = Pkt.sequencedData
  · subst hS
    exact dispatchOuch_congr s.countRecv.countSequenced mem mem' payloadLen h
  · unfold dispatchPacket
    unfold dispatchReads at h
    dsimp only
    by_cases hA : type = Pkt.loginAccepted
    · simp only [if_pos hA] at h ⊢
      split
      · rfl
      · rename_i hlen
        rw [if_neg hlen] at h
        rw [h (0, sessionLen) (by simp), h (sessionLen, sequenceLen) (by simp)]
    · simp only [if_neg hA, if_neg hS] at h ⊢
      by_cases hJ : type = Pkt.loginRejected
      · simp only [if_pos hJ] at h ⊢
        split
        · rename_i hlen
          rw [if_pos hlen] at h
          rw [h (0, 1) (by simp)]
        · rfl
      · rw [if_neg hJ, if_neg hJ]

/-- What a dispatch can read: session and number of a long enough LoginAccepted,
one byte of a payload that has one, or a message of exact size. -/
theorem mem_dispatchReads {type : UInt8} {mem : Bytes} {payloadLen : UInt64} {r : Nat × Nat}
    (h : r ∈ dispatchReads type mem payloadLen) :
    (¬ payloadLen < UInt64.ofNat (sessionLen + sequenceLen) ∧ (r = (0, sessionLen) ∨ r = (sessionLen, sequenceLen))) ∨
      (payloadLen ≠ 0 ∧ r = (0, 1)) ∨
      ∃ m : ServerMsg, payloadLen = UInt64.ofNat m.size ∧ r = (0, m.size) := by
  unfold dispatchReads at h
  split at h
  · split at h
    · cases h
    · rename_i hlen
      exact .inl ⟨hlen, by simpa using h⟩
  · split at h
    · split at h
      · rename_i hlen
        refine .inr (.inl ⟨?_, List.mem_singleton.1 h⟩)
        rintro rfl
        exact absurd hlen (by decide)
      · cases h
    · split at h
      · split at h
        · cases h
        · rename_i hlen
          -- the type byte is read first, and then the struct it names
          rcases List.mem_cons.1 h with rfl | h
          · exact .inr (.inl ⟨hlen, rfl⟩)
          · -- the struct is read only if its size is the payload's
            split at h
            · cases h
            · rename_i m hm
              split at h
              · cases h
              · rename_i hsize
                exact .inr (.inr ⟨m, not_not.1 hsize, List.mem_singleton.1 h⟩)
      · cases h

/-- With its true length a dispatch reads inside the payload. -/
theorem dispatchReads_inside (type : UInt8) (mem : Bytes) {n : Nat} (hn : n < 2 ^ 64) :
    ∀ r ∈ dispatchReads type mem (UInt64.ofNat n), r.1 + r.2 ≤ n := by
  intro r hr
  rcases mem_dispatchReads hr with ⟨hlen, hr⟩ | ⟨hpos, rfl⟩ | ⟨m, hsize, rfl⟩
  · rw [ofNat_lt hn (by decide)] at hlen
    simp only [sessionLen, sequenceLen] at hr hlen
    rcases hr with rfl | rfl
    · simp only
      omega
    · simp only
      omega
  · have hne : n ≠ 0 := by
      rintro rfl
      exact hpos rfl
    simp only
    omega
  · rw [ofNat_inj hn (by have := m.size_le; omega)] at hsize
    simp only
    omega

/-! ## Payload lengths -/

theorem payloadLen_of_pos {f : Frame} (h : 1 ≤ f.length.toNat) : f.payloadLen = UInt64.ofNat (f.length.toNat - 1) := by
  have hsize : f.length.toNat + 2 = f.length.toNat - 1 + headerLen := by
    rw [headerLen]
    omega
  rw [Frame.payloadLen, Header.payloadLen, Header.packetSize]
  dsimp only
  rw [hsize, UInt64.ofNat_add, UInt64.add_sub_cancel]

end OuchSession

/-- A call that stays inside its packet: the payload length is that of the
length field and of the bytes received, and bounds every read. -/
structure DispatchCall.Inside (c : DispatchCall) : Prop where
  exact : c.payloadLen.toNat + 1 = c.frame.length.toNat
  received : c.payloadLen.toNat = c.frame.body.length
  reads : ∀ r ∈ c.reads, r.1 + r.2 ≤ c.payloadLen.toNat

/-- What the parse loop tells `dispatch_packet` of a complete packet. -/
structure DispatchCall.OfPacket (c : DispatchCall) : Prop where
  body : c.frame.body.length = c.frame.length.toNat - 1
  payloadLen : c.payloadLen = c.frame.payloadLen
  reads : ∃ mem, c.reads = OuchSession.dispatchReads c.frame.packetType mem c.payloadLen

open OuchSession in
/-- The length stays right exactly for packets with room for their type byte:
for a length field of zero the subtraction wraps. -/
theorem DispatchCall.OfPacket.inside_iff {c : DispatchCall} (h : c.OfPacket) :
    c.Inside ↔ 1 ≤ c.frame.length.toNat := by
  constructor
  · intro hi
    have := hi.exact
    omega
  · intro hpos
    have hlt : c.frame.length.toNat < 2 ^ 16 := c.frame.length.toNat_lt
    have hlen : c.payloadLen.toNat = c.frame.length.toNat - 1 := by
      rw [h.payloadLen, payloadLen_of_pos hpos, UInt64.toNat_ofNat']
      exact Nat.mod_eq_of_lt (by omega)
    refine ⟨by omega, by rw [hlen, h.body], ?_⟩
    obtain ⟨mem, hreads⟩ := h.reads
    rw [hlen, hreads, h.payloadLen, payloadLen_of_pos hpos]
    exact dispatchReads_inside _ mem (by omega)

namespace OuchSession

/-- Every call of a run is one for a complete packet. -/
theorem dispatchCalls_run {s : OuchSession} (hfresh : s.Fresh) (ops : List Op) :
    ∀ c ∈ dispatchCalls (run step s ops).log, c.OfPacket := by
  refine inbound_run (I := fun s => ∀ c ∈ dispatchCalls s.log, c.OfPacket) ?_ ?_ ops ?_
  · intro s s' bytes hr h
    rw [← dispatchCalls_inbound, hr.inbound_eq, dispatchCalls_inbound]
    exact h
  · intro s f rest hn h c hc
    rw [(takePacket_spec hn).2.2] at hc
    rcases List.mem_append.1 hc with hc | hc
    · exact h c hc
    · obtain ⟨-, hsize, rfl, -⟩ := Frame.next_eq_some.1 hn
      rw [List.mem_singleton] at hc
      subst hc
      refine ⟨?_, rfl, _, rfl⟩
      dsimp only
      rw [List.length_drop, List.length_take, Nat.min_eq_left hsize, Header.packetSize, headerLen]
      omega
  · rw [hfresh.log]
    nofun

end OuchSession

end BistColo.Ouch
