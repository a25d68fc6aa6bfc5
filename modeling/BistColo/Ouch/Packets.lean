import BistColo.Ouch.Framing
/-!
# Every packet exactly once

`fault` and `message` say what is to happen to a packet of the gateway: the
error it is reported with, if any, and the handler it reaches, if any. A poll
handles the packets that are complete up to the first faulty one and reports
that (`poll_packets`), so enough polls handle all of them (`inbound_exact`),
whatever the chunks and whatever the timers and the output do meanwhile.
-/

open StreamKit

namespace BistColo.Ouch

open Soup

/-- The error a malformed packet is reported with. -/
def fault (p : Packet) : Option Error :=
  if p.packetType = Pkt.loginAccepted then
    if p.payload.length < sessionLen + sequenceLen then some (makeError .protocol "short LoginAccepted") else none
  else if p.packetType = Pkt.sequencedData then
    match p.payload with
    | [] => some (makeError .protocol "empty OUCH payload")
    | t :: _ =>
      match ServerMsg.ofType t with
      | none => some (makeError .protocol ("unknown OUCH type: " ++ text [t]))
      | some m =>
        if p.payload.length = m.size then none
        else some (makeError .protocol ("OUCH " ++ text [t] ++ " size mismatch"))
  else if p.packetType ∈ [Pkt.loginRejected, Pkt.serverHeartbeat, Pkt.endOfSession, Pkt.debug] then none
  else some (makeError .protocol ("unknown SoupBinTCP type: " ++ text [p.packetType]))

/-- The server message of a sequenced packet whose payload starts with a known
type byte and has that type's size. -/
def message (p : Packet) : Option (ServerMsg × Bytes) :=
  if p.packetType = Pkt.sequencedData then
    (p.payload.head?.bind ServerMsg.ofType).bind fun m => if p.payload.length = m.size then some (m, p.payload) else none
  else none

/-- What `dispatch_packet` is to be told of a packet. -/
def call (p : Packet) : Frame × UInt64 := (p.frame, UInt64.ofNat p.payload.length)

def verdict (p : Packet) : Result Unit :=
  match fault p with
  | none => .ok ()
  | some e => .error e

theorem payload_lt (p : Packet) : p.payload.length < 2 ^ 64 := by
  have := p.fits
  omega

theorem call_eq (p : Packet) : (p.frame, p.frame.payloadLen) = call p := by
  have hlen : UInt64.ofNat (p.payload.length + 1 + 2) - UInt64.ofNat headerLen = UInt64.ofNat p.payload.length := by
    rw [show p.payload.length + 1 + 2 = p.payload.length + headerLen from rfl, UInt64.ofNat_add, UInt64.add_sub_cancel]
  rw [call, Frame.payloadLen, Header.payloadLen, Header.packetSize]
  change (p.frame, UInt64.ofNat (p.header.length.toNat + 2) - UInt64.ofNat headerLen) = _
  rw [p.length_toNat, hlen]

theorem fault_protocol {p : Packet} {e : Error} (h : fault p = some e) : e.category = .protocol := by
  unfold fault at h
  repeat' split at h
  all_goals first
    | cases h; rfl
    | cases h

namespace OuchSession

/-! ## One packet -/

/-- `r` is what a dispatch of `p` in `s` is to come to: the error of a malformed
packet, and the handler call of a well-formed server message. -/
structure Judged (p : Packet) (s : OuchSession) (r : Result Unit × OuchSession) : Prop where
  verdict : r.1 = verdict p
  messages : messages r.2.log = messages s.log ++ (message p).toList

theorem dispatchOuch_packet (s : OuchSession) {p : Packet} (hS : p.packetType = Pkt.sequencedData) :
    Judged p s (s.dispatchOuch p.payload (UInt64.ofNat p.payload.length)) := by
  have hA : ¬ p.packetType = Pkt.loginAccepted := by rw [hS]; decide
  have hlt := payload_lt p
  suffices hs : (s.dispatchOuch p.payload (UInt64.ofNat p.payload.length)).1 = verdict p ∧
      messages (s.dispatchOuch p.payload (UInt64.ofNat p.payload.length)).2.log =
        messages s.log ++ (message p).toList from ⟨hs.1, hs.2⟩
  unfold dispatchOuch verdict fault message
  rw [if_neg hA, if_pos hS, if_pos hS]
  rcases hp : p.payload with _ | ⟨t, bs⟩
  · simp
  · rw [hp] at hlt
    have hne : ¬ UInt64.ofNat (t :: bs).length = 0 := by
      change ¬ UInt64.ofNat (t :: bs).length = UInt64.ofNat 0
      rw [ofNat_inj hlt (by decide)]
      exact Nat.succ_ne_zero _
    have htype : peek (t :: bs) 0 1 = [t] := by simp [peek, List.takeD]
    rw [if_neg hne, htype]
    dsimp only [List.head?_cons, Option.bind_some]
    cases hm : ServerMsg.ofType t with
    | none => simp
    | some m =>
      have hsize : UInt64.ofNat (t :: bs).length = UInt64.ofNat m.size ↔ (t :: bs).length = m.size :=
        ofNat_inj hlt (by have := m.size_le; omega)
      dsimp only [Option.bind_some]
      -- the struct is read only from a payload of its own size
      by_cases h : (t :: bs).length = m.size
      · have hbody : peek (t :: bs) 0 m.size = t :: bs := by
          rw [peek_inside (by omega), List.drop_zero, ← h, List.take_length]
        rw [if_neg (not_not.2 (hsize.2 h)), if_pos h, if_pos h, hbody]
        exact ⟨rfl, by rw [emit, messages_append]; rfl⟩
      · rw [if_pos (fun hc => h (hsize.1 hc)), if_neg h, if_neg h]
        exact ⟨rfl, (List.append_nil _).symm⟩

theorem Passive.judged {s : OuchSession} {p : Packet} {r : Result Unit × OuchSession} (h : Passive s r.2)
    (hr : r.1 = verdict p) (hm : message p = none) : Judged p s r := by
  obtain ⟨es, hlog, hin, -⟩ := h.log
  refine ⟨hr, ?_⟩
  rw [hm, hlog, messages_append, ← messages_inbound es, hin]
  rfl

theorem message_none {p : Packet} (hS : ¬ p.packetType = Pkt.sequencedData) : message p = none := by
  rw [message, if_neg hS]

theorem dispatchPacket_sequenced (s : OuchSession) {p : Packet} (hS : p.packetType = Pkt.sequencedData) :
    Judged p s (s.dispatchPacket p.packetType p.payload (UInt64.ofNat p.payload.length)) := by
  have hd := dispatchOuch_packet s.countRecv.countSequenced hS
  have hm : messages s.countRecv.countSequenced.log = messages s.log := by
    rw [countSequenced, emit, messages_append]
    exact List.append_nil _
  have he : s.dispatchPacket p.packetType p.payload (UInt64.ofNat p.payload.length) =
      s.countRecv.countSequenced.dispatchOuch p.payload (UInt64.ofNat p.payload.length) := by
    rw [hS]
    rfl
  rw [he]
  exact ⟨hd.verdict, by rw [hd.messages, hm]⟩

theorem dispatchPacket_login (s : OuchSession) {p : Packet} (hA : p.packetType = Pkt.loginAccepted) :
    Judged p s (s.dispatchPacket p.packetType p.payload (UInt64.ofNat p.payload.length)) := by
  have hm : message p = none := message_none (by rw [hA]; decide)
  have hlen : UInt64.ofNat p.payload.length < UInt64.ofNat (sessionLen + sequenceLen) ↔
      p.payload.length < sessionLen + sequenceLen := ofNat_lt (payload_lt p) (by decide)
  unfold dispatchPacket
  dsimp only
  rw [if_pos hA]
  by_cases h : p.payload.length < sessionLen + sequenceLen
  · rw [if_pos (hlen.2 h)]
    refine (passive_countRecv s).judged ?_ hm
    rw [verdict, fault, if_pos hA, if_pos h]
  · rw [if_neg (fun hc => h (hlen.1 hc))]
    refine ⟨?_, ?_⟩
    · rw [verdict, fault, if_pos hA, if_neg h]
    · rw [hm]
      simp [acceptLogin, setState, emit, countRecv, messages]

/-- The other types are judged by the type alone, whatever the payload. -/
theorem dispatchPacket_other (s : OuchSession) {p : Packet} (hA : ¬ p.packetType = Pkt.loginAccepted)
    (hS : ¬ p.packetType = Pkt.sequencedData) :
    Judged p s (s.dispatchPacket p.packetType p.payload (UInt64.ofNat p.payload.length)) := by
  have hpassive : Passive s (s.dispatchPacket p.packetType p.payload (UInt64.ofNat p.payload.length)).2 := by
    rcases dispatchPacket_cases s p.packetType p.payload (UInt64.ofNat p.payload.length) with
      ⟨h, -⟩ | ⟨h, -⟩ | ⟨-, -, h⟩
    · exact absurd h hA
    · exact absurd h hS
    · exact h
  refine hpassive.judged ?_ (message_none hS)
  rw [verdict, fault, if_neg hA, if_neg hS]
  by_cases hK : p.packetType ∈ [Pkt.loginRejected, Pkt.serverHeartbeat, Pkt.endOfSession, Pkt.debug]
  · rw [if_pos hK]
    simp only [List.mem_cons, List.not_mem_nil, or_false] at hK
    rcases hK with hJ | hH | hZ | hD
    · -- the reason byte of a rejection is optional
      rw [hJ]
      change (if 1 ≤ UInt64.ofNat p.payload.length then _ else _ : Result Unit × OuchSession).1 = _
      split <;> rfl
    · rw [hH]
      rfl
    · rw [hZ]
      rfl
    · rw [hD]
      rfl
  · rw [if_neg hK]
    simp only [List.mem_cons, List.not_mem_nil, or_false, not_or] at hK
    obtain ⟨hJ, hH, hZ, hD⟩ := hK
    unfold dispatchPacket
    dsimp only
    rw [if_neg hA, if_neg hJ, if_neg hH, if_neg hZ, if_neg hS, if_neg hD]

/-- What follows the packet in the buffer does not matter. -/
theorem dispatchPacket_packet (s : OuchSession) (p : Packet) (rest : Bytes) :
    Judged p s (s.dispatchPacket p.packetType (p.payload ++ rest) (UInt64.ofNat p.payload.length)) := by
  have hcongr : AgreeOn (dispatchReads p.packetType p.payload (UInt64.ofNat p.payload.length)) p.payload
      (p.payload ++ rest) := by
    intro r hr
    exact (peek_append (dispatchReads_inside _ _ (payload_lt p) r hr) rest).symm
  rw [← dispatchPacket_congr s _ _ _ _ hcongr]
  by_cases hS : p.packetType = Pkt.sequencedData
  · exact dispatchPacket_sequenced s hS
  · by_cases hA : p.packetType = Pkt.loginAccepted
    · exact dispatchPacket_login s hA
    · exact dispatchPacket_other s hA hS

/-- `s'` is `s` after it dispatched the packets `ps`. -/
structure Handled (s s' : OuchSession) (ps : List Packet) : Prop where
  dispatched : dispatched s'.log = dispatched s.log ++ ps.map call
  messages : messages s'.log = messages s.log ++ ps.filterMap message

theorem Handled.refl (s : OuchSession) : Handled s s [] := ⟨(List.append_nil _).symm, (List.append_nil _).symm⟩

theorem Handled.trans {s s' s'' : OuchSession} {ps qs : List Packet} (h : Handled s s' ps) (h' : Handled s' s'' qs) :
    Handled s s'' (ps ++ qs) :=
  ⟨by rw [h'.dispatched, h.dispatched, List.map_append, List.append_assoc],
    by rw [h'.messages, h.messages, List.filterMap_append, List.append_assoc]⟩

theorem Read.handled {s s' : OuchSession} {bytes : Bytes} (h : Read s s' bytes) : Handled s s' [] :=
  ⟨by rw [← dispatched_inbound, h.inbound_eq, dispatched_inbound]; exact (List.append_nil _).symm,
    by rw [← messages_inbound, h.inbound_eq, messages_inbound]; exact (List.append_nil _).symm⟩

/-- A framed packet in front of the buffer is taken off, dispatched and judged
by itself, whatever follows it. -/
theorem takePacket_packet {s : OuchSession} {p : Packet} {rest : Bytes} (h : s.inBuffer = p.encode ++ rest) :
    (s.takePacket (Header.read s.inBuffer)).1 = verdict p ∧
      (s.takePacket (Header.read s.inBuffer)).2.inBuffer = rest ∧
      (s.takePacket (Header.read s.inBuffer)).2.socket = s.socket ∧
      Handled s (s.takePacket (Header.read s.inBuffer)).2 [p] := by
  have hnext : soup.next s.inBuffer = some (p.frame, rest) := by rw [h, soup_next_packet]
  obtain ⟨hbuf, hsock, -⟩ := takePacket_spec hnext
  have hread : Header.read s.inBuffer = p.header := by
    rw [h, Packet.encode, List.append_assoc, Header.read_bytes]
  have hmem : s.inBuffer.drop headerLen = p.payload ++ rest := by
    rw [h, Packet.encode, List.append_assoc]
    exact List.drop_left' (by simp [headerLen])
  have hlen : p.header.payloadLen = UInt64.ofNat p.payload.length := congrArg Prod.snd (call_eq p)
  obtain ⟨hv, hm⟩ := dispatchPacket_packet (s.announce p.header) p rest
  have hann : messages (s.announce p.header).log = messages s.log := by simp [announce, emit, messages]
  refine ⟨?_, hbuf, hsock, ?_, ?_⟩
  · rw [takePacket, hmem, hread, hlen]
    exact hv
  · rw [dispatched_takePacket hnext, call_eq]
    rfl
  · rw [takePacket, hmem, hread, hlen, ← hann]
    refine hm.trans ?_
    cases hp : message p with
    | none => simp [hp]
    | some m => simp [hp]

/-! ## One poll -/

/-- The parse loop handles the packets in the buffer up to the first fault,
and reports that. -/
theorem parseLoop_packets (ps : List Packet) (tail : Bytes) (htail : soup.next tail = none) (fuel : Nat) (s : OuchSession)
    (hbuf : s.inBuffer = ps.flatMap Packet.encode ++ tail) (hfuel : ps.length ≤ fuel) :
    ∃ k r s', s.parseLoop fuel = (r, s') ∧ k ≤ ps.length ∧ s'.inBuffer = (ps.drop k).flatMap Packet.encode ++ tail ∧
      s'.socket = s.socket ∧ Handled s s' (ps.take k) ∧
      ((r = .ok () ∧ (ps.take k).filterMap fault = [] ∧ soup.next s'.inBuffer = none) ∨
        ∃ e, r = .error e ∧ (ps.take k).filterMap fault = [e]) := by
  induction ps generalizing fuel s with
  | nil =>
    have hnext : soup.next s.inBuffer = none := by rw [hbuf]; exact htail
    exact ⟨0, _, s, parseLoop_none fuel hnext, Nat.le_refl 0, hbuf, rfl, .refl s, .inl ⟨rfl, rfl, hnext⟩⟩
  | cons p ps ih =>
    obtain ⟨fuel, rfl⟩ : ∃ n, fuel = n + 1 := ⟨fuel - 1, by rw [List.length_cons] at hfuel; omega⟩
    rw [List.flatMap_cons, List.append_assoc] at hbuf
    have hnext : soup.next s.inBuffer = some (p.frame, ps.flatMap Packet.encode ++ tail) := by
      rw [hbuf, soup_next_packet]
    obtain ⟨hv, hb, hk, hh⟩ := takePacket_packet hbuf
    rw [parseLoop_some fuel hnext]
    rcases ht : s.takePacket (Header.read s.inBuffer) with ⟨r, s1⟩
    rw [ht] at hv hb hk hh
    dsimp only at hv hb hk hh
    cases hf : fault p with
    | some e =>
      -- the loop stops behind the faulty packet
      obtain rfl : r = .error e := by rw [hv, verdict, hf]
      exact ⟨1, _, s1, rfl, by simp, hb, hk, hh, .inr ⟨e, rfl, by simp [hf]⟩⟩
    | none =>
      obtain rfl : r = .ok () := by rw [hv, verdict, hf]
      obtain ⟨k, r, s2, hloop, hle, hb2, hk2, hh2, hr⟩ := ih fuel s1 hb (by rw [List.length_cons] at hfuel; omega)
      refine ⟨k + 1, r, s2, hloop, Nat.succ_le_succ hle, hb2, hk2.trans hk, hh.trans hh2, ?_⟩
      rwa [List.take_succ_cons, List.filterMap_cons_none hf]

theorem writeBytes_error {s s' : OuchSession} {buf : Bytes} {e : Error} (h : s.writeBytes buf = (.error e, s')) :
    e.category = .io := by
  unfold writeBytes at h
  dsimp only at h
  split at h
  · rename_i e' he
    cases h
    exact TcpSocket.drainN_error _ he
  · split at h
    · cases h
    · cases h

/-- The timers report no Protocol error. -/
theorem tickTimers_error {s s' : OuchSession} {e : Error} (h : s.tickTimers = (.error e, s')) :
    e.category ≠ .protocol := by
  unfold tickTimers at h
  dsimp only at h
  split at h
  · cases h
  · split at h
    · rename_i hb
      cases h
      unfold sendHeartbeat at hb
      split at hb
      · rw [writeBytes_error hb]
        decide
      · cases hb
    · unfold watchdog at h
      split at h
      · cases h
        decide
      · cases h

/-- The Protocol errors among the results of a run. -/
def protocolErrors (rs : List (Result Unit)) : List Error :=
  rs.filterMap fun | .error e => if e.category = .protocol then some e else none | .ok () => none

theorem protocolErrors_cons (r : Result Unit) (rs : List (Result Unit)) :
    protocolErrors (r :: rs) = protocolErrors [r] ++ protocolErrors rs :=
  List.filterMap_append (l := [r])

/-- The bytes a list of answers delivers. -/
def answered (as : List RecvAnswer) : Bytes := as.flatMap fun | .data c => c.bytes | _ => []

/-- Answers without end of file or error. -/
def Quiet (as : List RecvAnswer) : Prop := ∀ a ∈ as, a = .again ∨ ∃ c, a = .data c

theorem answered_chunks (chunks : List Chunk) (rest : List RecvAnswer) :
    answered (chunks.map .data ++ rest) = chunks.flatMap Chunk.bytes ++ answered rest := by
  simp [answered, List.flatMap_map]

/-- The answers of one round: some chunks, then EAGAIN or nothing more. -/
theorem quiet_split {as : List RecvAnswer} (h : Quiet as) :
    ∃ (chunks : List Chunk) (rest : List RecvAnswer), as = chunks.map .data ++ rest ∧ Ends rest (.ok ()) := by
  obtain ⟨chunks, rest, r, has, hr⟩ := answers_split as
  refine ⟨chunks, rest, has, ?_⟩
  subst has
  cases hr with
  | used => exact .used
  | again r => exact .again r
  | eof r => rcases h .eof (by simp) with h | ⟨c, h⟩ <;> cases h
  | fail e r => rcases h (.fail e) (by simp) with h | ⟨c, h⟩ <;> cases h

theorem length_le_encoded (ps : List Packet) : ps.length ≤ (ps.flatMap Packet.encode).length := by
  induction ps with
  | nil => exact Nat.le_refl 0
  | cons p ps ih =>
    rw [List.flatMap_cons, List.length_append, List.length_cons, p.length_encode]
    omega

theorem pollIo_fault {s s1 s2 : OuchSession} {e : Error} (h1 : s.readSome = (.ok (), s1))
    (h2 : s1.parseLoop s1.inBuffer.length = (.error e, s2)) : s.pollIo = (.error e, s2) := by
  rw [pollIo, h1]
  dsimp only
  rw [parsePending, h2]

theorem pollIo_timers {s s1 s2 : OuchSession} (h1 : s.readSome = (.ok (), s1))
    (h2 : s1.parseLoop s1.inBuffer.length = (.ok (), s2)) : s.pollIo = s2.tickTimers := by
  rw [pollIo, h1]
  dsimp only
  rw [parsePending, h2]

/-- A poll handles the complete packets up to the first fault, and reports
that as its one Protocol error. -/
theorem poll_packets {s : OuchSession} {ps : List Packet} {tail : Bytes} {chunks : List Chunk} {rest : List RecvAnswer}
    (hopen : s.socket.isOpen = true) (hs : s.socket.recvs = chunks.map .data ++ rest) (hr : Ends rest (.ok ()))
    (hbytes : s.inBuffer ++ answered s.socket.recvs = ps.flatMap Packet.encode ++ tail)
    (htail : soup.next tail = none) :
    ∃ k, s.pollIo.2.socket.isOpen = true ∧ s.pollIo.2.socket.recvs = rest.tail ∧
      s.pollIo.2.inBuffer ++ answered rest.tail = (ps.drop k).flatMap Packet.encode ++ tail ∧
      Handled s s.pollIo.2 (ps.take k) ∧ protocolErrors [s.pollIo.1] = (ps.take k).filterMap fault ∧
      (protocolErrors [s.pollIo.1] = [] → soup.next s.pollIo.2.inBuffer = none) := by
  obtain ⟨s1, hread, hs1, hrest⟩ := readSome_spec hopen hs hr
  have hrest' : answered rest = answered rest.tail := by
    cases hr with
    | used => rfl
    | again r => rfl
  rw [hs, answered_chunks, ← List.append_assoc, ← hs1.inBuffer, hrest'] at hbytes
  -- the buffer is some whole packets and the front part of the next
  obtain ⟨n, t, hbuf, ht, hmore⟩ := soup.encoded_prefix Packet.encode Packet.frame ps tail s1.inBuffer
    (answered rest.tail) (fun p _ zs => soup_next_packet p zs) htail hbytes
  have hfuel : (ps.take n).length ≤ s1.inBuffer.length := by
    rw [hbuf, List.length_append]
    have := length_le_encoded (ps.take n)
    omega
  obtain ⟨k, r, s2, hparse, hk, hbuf2, hsock2, hh, hres⟩ :=
    parseLoop_packets (ps.take n) t ht s1.inBuffer.length s1 hbuf hfuel
  have hkn : k ≤ n := by
    rw [List.length_take] at hk
    omega
  have hleft : s2.inBuffer ++ answered rest.tail = (ps.drop k).flatMap Packet.encode ++ tail := by
    rw [hbuf2, List.append_assoc, hmore, ← List.append_assoc, ← List.flatMap_append,
      ← List.drop_append_of_le_length hk, List.take_append_drop]
  rw [List.take_take, Nat.min_eq_left hkn] at hh hres
  refine ⟨k, ?_⟩
  rcases hres with ⟨rfl, hnone, hnext⟩ | ⟨e, rfl, he⟩
  · have ht2 := sameInput_tickTimers s2
    have hquiet : protocolErrors [s2.tickTimers.1] = [] := by
      rcases hr2 : s2.tickTimers with ⟨r, s3⟩
      cases r with
      | ok u => rfl
      | error e => simp [protocolErrors, tickTimers_error hr2]
    rw [pollIo_timers hread hparse, hquiet, hnone]
    refine ⟨?_, ?_, ?_, ?_, rfl, fun _ => ?_⟩
    · rw [ht2.socket.1, hsock2, hs1.isOpen, hopen]
    · rw [ht2.socket.2.1, hsock2, hrest]
    · rw [ht2.inBuffer, hleft]
    · simpa using (hs1.handled.trans hh).trans ht2.read.handled
    · rw [ht2.inBuffer, hnext]
  · have hcat : e.category = .protocol := by
      obtain ⟨p, -, hp⟩ := List.mem_filterMap.1 (he ▸ List.mem_cons_self : e ∈ (ps.take k).filterMap fault)
      exact fault_protocol hp
    have hone : protocolErrors [.error e] = [e] := by simp [protocolErrors, hcat]
    rw [pollIo_fault hread hparse, hone, he]
    refine ⟨?_, ?_, hleft, ?_, rfl, nofun⟩
    · rw [hsock2, hs1.isOpen, hopen]
    · rw [hsock2, hrest]
    · simpa using hs1.handled.trans hh

/-! ## Enough polls -/

/-- The results of the operations of a run. -/
def results (s : OuchSession) : List Op → List (Result Unit)
  | [] => []
  | op :: ops => (s.exec op).1 :: results (s.step op) ops

def faults (ps : List Packet) : Nat := (ps.filterMap fault).length

/-- How many polls handle everything: one for each round of answers and one
more, and one for each fault; without answers left, one for what waits in the
buffer and one for each fault in it. -/
def pollsLeft (s : OuchSession) (ps : List Packet) : Nat :=
  if s.socket.recvs = [] then (if soup.next s.inBuffer = none then 0 else 1) + faults ps
  else s.socket.recvs.count .again + 1 + faults ps

theorem encoded_incomplete {ps : List Packet} {tail : Bytes}
    (h : soup.next (ps.flatMap Packet.encode ++ tail) = none) : ps = [] := by
  cases ps with
  | nil => rfl
  | cons p ps =>
    rw [List.flatMap_cons, List.append_assoc, soup_next_packet] at h
    cases h

theorem faults_take_drop (k : Nat) (ps : List Packet) : faults ps = faults (ps.take k) + faults (ps.drop k) := by
  rw [faults, faults, faults, ← List.length_append, ← List.filterMap_append, List.take_append_drop]

/-- One poll is one poll less. -/
theorem pollsLeft_pollIo {s : OuchSession} {ps : List Packet} {tail : Bytes} {chunks : List Chunk}
    {rest : List RecvAnswer} {k n : Nat} (hs : s.socket.recvs = chunks.map .data ++ rest) (hr : Ends rest (.ok ()))
    (hbytes : s.inBuffer ++ answered s.socket.recvs = ps.flatMap Packet.encode ++ tail)
    (hrest : s.pollIo.2.socket.recvs = rest.tail)
    (hleft : s.pollIo.2.inBuffer ++ answered rest.tail = (ps.drop k).flatMap Packet.encode ++ tail)
    (herr : protocolErrors [s.pollIo.1] = (ps.take k).filterMap fault)
    (hnext : protocolErrors [s.pollIo.1] = [] → soup.next s.pollIo.2.inBuffer = none)
    (hn : pollsLeft s ps ≤ n + 1) : pollsLeft s.pollIo.2 (ps.drop k) ≤ n := by
  have hsplit := faults_take_drop k ps
  -- behind a poll that reports no fault nothing complete waits
  have hbehind : (if soup.next s.pollIo.2.inBuffer = none then 0 else 1) ≤ faults (ps.take k) := by
    by_cases he : protocolErrors [s.pollIo.1] = []
    · rw [if_pos (hnext he)]
      exact Nat.zero_le _
    · rw [herr] at he
      have := List.length_pos_iff.2 he
      rw [faults]
      split <;> omega
  by_cases hnil : s.socket.recvs = []
  · obtain ⟨-, rfl⟩ : chunks = [] ∧ rest = [] := by simpa [hnil] using hs.symm
    rw [hnil] at hbytes
    simp only [answered, List.flatMap_nil, List.append_nil, List.tail_nil] at hbytes hleft hrest
    rw [pollsLeft, if_pos hnil] at hn
    rw [pollsLeft, if_pos hrest]
    by_cases he : soup.next s.pollIo.2.inBuffer = none
    · have hdone : ps.drop k = [] := encoded_incomplete (by rw [← hleft]; exact he)
      rw [if_pos he, hdone]
      exact Nat.zero_le _
    · have hsome : ¬ soup.next s.inBuffer = none := by
        intro hnone
        obtain rfl : ps = [] := encoded_incomplete (by rw [← hbytes]; exact hnone)
        rw [List.take_nil] at hbehind
        rw [if_neg he] at hbehind
        cases hbehind
      rw [if_neg hsome] at hn
      rw [if_neg he] at hbehind ⊢
      omega
  · rw [pollsLeft, if_neg hnil] at hn
    rw [pollsLeft, hrest]
    cases hr with
    | used =>
      rw [List.tail_nil, if_pos rfl]
      omega
    | again r =>
      rw [List.tail_cons]
      have hcount : s.socket.recvs.count .again = r.count .again + 1 := by
        rw [hs, List.count_append, List.count_cons_self, List.count_eq_zero.2 (by simp), Nat.zero_add]
      split
      · omega
      · omega

theorem polls_packets (n : Nat) {s : OuchSession} {ps : List Packet} {tail : Bytes} (hopen : s.socket.isOpen = true)
    (hquiet : Quiet s.socket.recvs)
    (hbytes : s.inBuffer ++ answered s.socket.recvs = ps.flatMap Packet.encode ++ tail)
    (htail : soup.next tail = none) (hn : pollsLeft s ps ≤ n) :
    Handled s (run step s (List.replicate n .pollIo)) ps ∧
      protocolErrors (results s (List.replicate n .pollIo)) = ps.filterMap fault ∧
      (run step s (List.replicate n .pollIo)).inBuffer = tail := by
  induction n generalizing s ps with
  | zero =>
    -- no poll is left, so nothing is on its way and no packet is complete
    rw [pollsLeft] at hn
    split at hn
    · rename_i hnil
      have hbuf : s.inBuffer = ps.flatMap Packet.encode ++ tail := by simpa [hnil, answered] using hbytes
      have hnone : soup.next s.inBuffer = none := by
        by_contra hne
        rw [if_neg hne] at hn
        omega
      obtain rfl : ps = [] := encoded_incomplete (by rw [← hbuf]; exact hnone)
      exact ⟨.refl s, rfl, hbuf⟩
    · omega
  | succ n ih =>
    -- one poll dispatches the packets up to the next error or wait, the others are left
    obtain ⟨chunks, rest, hs, hr⟩ := quiet_split hquiet
    obtain ⟨k, hopen', hrest, hleft, hh, herr, hnext⟩ := poll_packets hopen hs hr hbytes htail
    have hn' := pollsLeft_pollIo hs hr hbytes hrest hleft herr hnext hn
    have hquiet' : Quiet s.pollIo.2.socket.recvs := by
      intro a ha
      rw [hrest] at ha
      exact hquiet a (by rw [hs]; exact List.mem_append_right _ (List.mem_of_mem_tail ha))
    obtain ⟨hh', herr', hbuf'⟩ := ih hopen' hquiet' (by rw [hrest]; exact hleft) hn'
    rw [List.replicate_succ, run_cons]
    refine ⟨?_, ?_, hbuf'⟩
    · rw [← List.take_append_drop k ps]
      exact hh.trans hh'
    · have hcut : ps.filterMap fault = (ps.take k).filterMap fault ++ (ps.drop k).filterMap fault := by
        rw [← List.filterMap_append, List.take_append_drop]
      rw [results, protocolErrors_cons, hcut, ← herr, ← herr']
      rfl

/-- For every list of packets and every way of cutting their stream into
chunks, enough polls dispatch every packet once, in order, with its type and
payload, hand exactly the well-formed server messages to their handlers, report
each malformed packet with one Protocol error, and leave the incomplete tail in
the buffer. -/
theorem inbound_exact {s : OuchSession} {ps : List Packet} {tail : Bytes} {n : Nat} (hbuf : s.inBuffer = [])
    (hopen : s.socket.isOpen = true) (hquiet : Quiet s.socket.recvs)
    (hbytes : answered s.socket.recvs = ps.flatMap Packet.encode ++ tail) (htail : soup.next tail = none)
    (hn : s.socket.recvs.count .again + 1 + faults ps ≤ n) :
    let polls := List.replicate n Op.pollIo
    dispatched (run step s polls).log = dispatched s.log ++ ps.map call ∧
      messages (run step s polls).log = messages s.log ++ ps.filterMap message ∧
      protocolErrors (results s polls) = ps.filterMap fault ∧
      (run step s polls).inBuffer = tail := by
  have hleft : pollsLeft s ps ≤ n := by
    rw [pollsLeft]
    split
    · rw [hbuf, if_pos soup.next_nil]
      omega
    · exact hn
  have hstream : s.inBuffer ++ answered s.socket.recvs = ps.flatMap Packet.encode ++ tail := by
    rw [hbuf, hbytes, List.nil_append]
  obtain ⟨hh, herr, htail'⟩ := polls_packets n hopen hquiet hstream htail hleft
  exact ⟨hh.dispatched, hh.messages, herr, htail'⟩

/-- A debug packet, an empty sequenced packet and the first half of a
heartbeat, in two chunks. -/
def dripping : OuchSession :=
  create { recvs := [.data ⟨[0, 1, 43, 0], by decide, by decide⟩, .again,
             .data ⟨[1, 83, 0, 1], by decide, by decide⟩] }
    { reading := fun _ => 0 } { username := ascii "OUCH01", password := ascii "secret" } Soup.heartbeatSendNs

theorem inbound_exact_dripping :
    let ps : List Packet := [⟨Pkt.debug, [], by decide⟩, ⟨Pkt.sequencedData, [], by decide⟩]
    let polls := List.replicate 3 Op.pollIo
    dispatched (run step dripping polls).log = dispatched dripping.log ++ ps.map call ∧
      messages (run step dripping polls).log = messages dripping.log ++ ps.filterMap message ∧
      protocolErrors (results dripping polls) = ps.filterMap fault ∧
      (run step dripping polls).inBuffer = [0, 1] := by
  refine inbound_exact rfl rfl ?_ (by decide) (by decide) (by decide)
  intro a ha
  simp only [dripping, create, List.mem_cons, List.not_mem_nil, or_false] at ha
  rcases ha with rfl | rfl | rfl
  · exact .inr ⟨_, rfl⟩
  · exact .inl rfl
  · exact .inr ⟨_, rfl⟩

end OuchSession

end BistColo.Ouch
