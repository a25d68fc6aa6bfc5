import BistColo.Ouch.Login
import BistColo.Ouch.Packets
import BistColo.Ouch.Writing
import BistColo.StreamKit.Backlog
/-!
# A session and its streams

What one operation adds to the two streams of a session's socket: it asks for
whole packets (`requests_step`), the wire only grows (`wire_step`), and of a
stream of sound packets it takes the next ones, however much of it has come
(`Hears.step`). A session is one end of a connection then, and whatever is at the
other end is told by what it wrote.
-/

open StreamKit

namespace BistColo.Ouch.OuchSession

open Soup

/-! ## The packets asked for -/

/-- The message of a `send_*` function fits into a packet. -/
def Fits : Op → Prop
  | .send m => m.bytes.length ≤ 65534
  | .beginLogin | .requestLogout | .pollIo => True

theorem nil_fits : ([] : Bytes).length ≤ 65534 := Nat.zero_le _

/-- A packet without a payload. -/
def empty (type : UInt8) : Packet := ⟨type, [], nil_fits⟩

theorem encode_empty (type : UInt8) : (empty type).encode = (makeHeader type 0).bytes := List.append_nil _

/-- The fields of a LoginRequest behind its header. -/
def loginPayload (lp : LoginParams) : Bytes :=
  (loginRequest lp).username.bytes ++ (loginRequest lp).password.bytes ++ (loginRequest lp).requestedSession.bytes ++
    (loginRequest lp).requestedSequenceNumber.bytes

theorem length_loginPayload (lp : LoginParams) : (loginPayload lp).length = 46 := by
  simp [loginPayload]

theorem login_fits (lp : LoginParams) : (loginPayload lp).length ≤ 65534 := by
  rw [length_loginPayload]
  decide

def loginPacket (lp : LoginParams) : Packet := ⟨Pkt.loginRequest, loginPayload lp, login_fits lp⟩

theorem encode_loginPacket (lp : LoginParams) : (loginPacket lp).encode = (loginRequest lp).bytes := by
  have hheader : (loginPacket lp).header = (loginRequest lp).header := by
    change makeHeader Pkt.loginRequest (UInt16.ofNat (loginPayload lp).length) = _
    rw [length_loginPayload]
    rfl
  rw [Packet.encode, hheader, LoginRequest.bytes]
  simp [loginPacket, loginPayload]

/-- What the unsequenced packets carry. -/
def payloads (ps : List Packet) : List Bytes :=
  (ps.filter fun p => p.packetType = Pkt.unsequencedData).map Packet.payload

@[simp] theorem payloads_append (ps qs : List Packet) : payloads (ps ++ qs) = payloads ps ++ payloads qs := by
  simp [payloads]

theorem requests_tickTimers (s : OuchSession) :
    ∃ ps : List Packet, requests s.tickTimers.2.log = requests s.log ++ ps.map Packet.encode ∧ payloads ps = [] := by
  have hflush : requests s.flushPending.log = requests s.log := rfl
  unfold tickTimers
  dsimp only
  split
  · exact ⟨[], (List.append_nil _).symm, rfl⟩
  · have hbeat : ∃ ps : List Packet, requests (s.flushPending.tick.sendHeartbeat s.flushPending.now).2.log =
        requests s.log ++ ps.map Packet.encode ∧ payloads ps = [] := by
      unfold sendHeartbeat
      split
      · refine ⟨[empty Pkt.clientHeartbeat], ?_, rfl⟩
        dsimp only
        rw [requests_writeBytes, List.map_singleton, encode_empty]
        simp [emit, requests, tick, flushPending, withSocket]
      · exact ⟨[], (List.append_nil _).symm, rfl⟩
    split
    · rename_i he
      rwa [he] at hbeat
    · rename_i he
      rw [he] at hbeat
      obtain ⟨ps, hps, hnone⟩ := hbeat
      refine ⟨ps, ?_, hnone⟩
      unfold watchdog
      split
      · rw [← hps]
        exact (sameOutput_setState _ _ _).requests_eq
      · exact hps

/-- An operation asks for whole packets, and for an unsequenced one only to send a
message in an active session. -/
theorem requests_step (s : OuchSession) {op : Op} (h : Fits op) :
    ∃ ps : List Packet, requests (s.step op).log = requests s.log ++ ps.map Packet.encode ∧
      (payloads ps = [] ∨ (s.state = .active ∧ ∃ m, op = .send m ∧ payloads ps = [m.bytes])) := by
  have hnothing : ∀ s' : OuchSession, requests s'.log = requests s.log →
      ∃ ps : List Packet, requests s'.log = requests s.log ++ ps.map Packet.encode ∧
        (payloads ps = [] ∨ (s.state = .active ∧ ∃ m, op = .send m ∧ payloads ps = [m.bytes])) := by
    intro s' hs'
    exact ⟨[], by rw [hs']; exact (List.append_nil _).symm, .inl rfl⟩
  cases op with
  | beginLogin =>
    by_cases hopen : s.socket.isOpen = true
    · refine ⟨[loginPacket s.login], ?_, .inl rfl⟩
      rw [List.map_singleton, encode_loginPacket]
      exact requests_beginLogin hopen
    · apply hnothing
      rw [step, exec, beginLogin, if_pos (Bool.eq_false_iff.2 hopen)]
  | send m =>
    have hfits : m.bytes.length ≤ 65534 := h
    unfold step exec
    dsimp only
    rw [send_eq]
    unfold sendUnsequenced
    split
    · exact hnothing s rfl
    · rename_i hactive
      refine ⟨[⟨Pkt.unsequencedData, m.bytes, hfits⟩], ?_, .inr ⟨not_not.1 hactive, m, rfl, rfl⟩⟩
      dsimp only
      -- the header's write may fail, and the packet is asked for all the same
      split
      · rename_i he
        have hs := congrArg Prod.snd he
        dsimp only at hs ⊢
        rw [← hs, requests_writeBytes]
        simp [emit, requests, Packet.encode, Packet.header]
      · rename_i he
        have hs := congrArg Prod.snd he
        dsimp only at hs
        rw [requests_writeBytes, ← hs, requests_writeBytes]
        simp [emit, requests, Packet.encode, Packet.header]
  | requestLogout =>
    refine ⟨[empty Pkt.logoutRequest], ?_, .inl rfl⟩
    rw [List.map_singleton, encode_empty]
    unfold step exec requestLogout
    dsimp only
    rw [requests_writeBytes]
    simp [emit, setState, requests]
  | pollIo =>
    have hr := (sameOutput_readSome s).requests_eq
    unfold step exec pollIo
    dsimp only
    split
    · rename_i he
      rw [he] at hr
      exact hnothing _ hr
    · rename_i s1 he
      rw [he] at hr
      have hp := (sameOutput_parseLoop s1.inBuffer.length s1).requests_eq
      split
      · rename_i hpe
        rw [parsePending] at hpe
        rw [hpe] at hp
        exact hnothing _ (hp.trans hr)
      · rename_i s2 hpe
        rw [parsePending] at hpe
        rw [hpe] at hp
        obtain ⟨ps, hps, hnone⟩ := s2.requests_tickTimers
        exact ⟨ps, by rw [hps, hp, hr], .inl hnone⟩

/-! ## The wire -/

theorem Path.wire {s s' : OuchSession} {calls : List (OuchSession × Bytes)} (h : Path s calls s') :
    s.socket.wire <+: s'.socket.wire := by
  induction h with
  | nil s => exact List.prefix_rfl
  | unsent hs _ ih =>
    rw [← hs.wire]
    exact ih
  | @flush s _ _ _ ih =>
    obtain ⟨n, -, hwire, -⟩ := s.socket.drain_spec s.outPending
    exact List.IsPrefix.trans ⟨_, hwire.symm⟩ ih
  | @write s _ _ buf _ ih =>
    obtain ⟨n, -, hwire, -⟩ := s.socket.drain_spec buf
    have hsocket : (s.writeBytes buf).2.socket = (s.socket.drain buf).socket := by
      unfold writeBytes
      dsimp only
      split
      · rfl
      · split <;> rfl
    rw [hsocket, hwire] at ih
    exact (List.prefix_append _ _).trans ih

theorem wire_step {s : OuchSession} (hk : s.socket.NoSendErrors) (op : Op) : s.socket.wire <+: (s.step op).socket.wire :=
  (path_step hk op).wire

/-! ## The packets that come -/

/-- Of the packets that are sent, the session has dispatched the first `m`; the
others are in its buffer, in its socket, and `coming`. -/
structure Hears (s : OuchSession) (sent : List Packet) (m : Nat) (coming : Bytes) : Prop where
  isOpen : s.socket.isOpen = true
  left : Backlog Packet.encode sent m (s.inBuffer ++ (answered s.socket.recvs ++ coming))
  calls : dispatched s.log = (sent.take m).map call
  messages : messages s.log = (sent.take m).filterMap message

theorem Hears.sameInput {s s' : OuchSession} {sent : List Packet} {m : Nat} {coming : Bytes} (h : Hears s sent m coming)
    (hs : SameInput s s') : Hears s' sent m coming where
  isOpen := hs.socket.1.trans h.isOpen
  left := by
    rw [hs.inBuffer, hs.socket.2.1]
    exact h.left
  calls := by
    rw [← dispatched_inbound, hs.inbound_eq, dispatched_inbound]
    exact h.calls
  messages := by
    rw [← messages_inbound, hs.inbound_eq, messages_inbound]
    exact h.messages

/-- More packets are sent, behind what is coming. -/
theorem Hears.more {s : OuchSession} {sent : List Packet} {m : Nat} {coming : Bytes} (h : Hears s sent m coming)
    (more : List Packet) : Hears s (sent ++ more) m (coming ++ more.flatMap Packet.encode) where
  isOpen := h.isOpen
  left := by
    have hwrite := h.left.write more
    simpa using hwrite
  calls := by
    rw [List.take_append_of_le_length h.left.le]
    exact h.calls
  messages := by
    rw [List.take_append_of_le_length h.left.le]
    exact h.messages

theorem take_drop_append {ps : List Packet} (k n : Nat) : (ps.take n).drop k ++ ps.drop n = ps.drop (min k n) := by
  by_cases hk : k ≤ n
  · rw [Nat.min_eq_left hk, List.drop_take]
    have hcut : ps.drop n = (ps.drop k).drop (n - k) := by
      rw [List.drop_drop]
      congr 1
      omega
    rw [hcut, List.take_append_drop]
  · rw [Nat.min_eq_right (Nat.le_of_not_le hk), List.drop_eq_nil_of_le, List.nil_append]
    rw [List.length_take]
    omega

/-- Dispatching the next packets leaves the others. -/
theorem Hears.handled {s s' : OuchSession} {sent : List Packet} {m : Nat} {coming : Bytes} (h : Hears s sent m coming)
    (j : Nat) (hopen : s'.socket.isOpen = true)
    (hleft : s'.inBuffer ++ (answered s'.socket.recvs ++ coming) = ((sent.drop m).drop j).flatMap Packet.encode)
    (hhandled : Handled s s' ((sent.drop m).take j)) : ∃ m', m ≤ m' ∧ Hears s' sent m' coming := by
  have hle := h.left.le
  have htake : sent.take (min (m + j) sent.length) = sent.take m ++ (sent.drop m).take j := by
    rw [← List.take_add, List.take_eq_take_iff]
    omega
  refine ⟨min (m + j) sent.length, by omega, hopen, Backlog.taken j hleft, ?_, ?_⟩
  · rw [hhandled.dispatched, h.calls, htake, List.map_append]
  · rw [hhandled.messages, h.messages, htake, List.filterMap_append]

theorem answered_ends {rest : List RecvAnswer} {r : Result Unit} (h : Ends rest r) : answered rest = answered rest.tail := by
  cases h with
  | used => rfl
  | again r => rfl
  | eof r => rfl
  | fail errno r => rfl

/-- A poll dispatches the next packets of those that have come, and finds no fault. -/
theorem Hears.poll {s : OuchSession} {sent : List Packet} {m : Nat} {coming : Bytes} (h : Hears s sent m coming)
    (hsound : ∀ p ∈ sent, fault p = none) :
    (∃ m', m ≤ m' ∧ Hears s.pollIo.2 sent m' coming) ∧ protocolErrors [s.pollIo.1] = [] := by
  obtain ⟨chunks, rest, r, hs, hr⟩ := answers_split s.socket.recvs
  have hleft := h.left.eq
  cases hres : r with
  | error e =>
    -- the end of file, or an error, is reported before anything is parsed
    obtain ⟨s', hread, hs', hrest⟩ := readSome_spec h.isOpen hs hr
    have hpoll : s.pollIo = (.error e, s') := by
      rw [pollIo, hread, hres]
    have hio : protocolErrors [.error e] = [] := by
      rw [hres] at hr
      cases hr with
      | eof r => rfl
      | fail errno r => rfl
    rw [hpoll]
    refine ⟨h.handled 0 (hs'.isOpen.trans h.isOpen) ?_ ?_, hio⟩
    · rw [List.drop_zero, ← hleft, hs'.inBuffer, hrest, hs, answered_chunks, ← answered_ends hr]
      simp
    · rw [List.take_zero]
      exact hs'.handled
  | ok u =>
    rw [hres] at hr
    rw [← List.append_assoc] at hleft
    obtain ⟨n, t, hfront, ht, hbehind⟩ := soup.encoded_prefix Packet.encode Packet.frame (sent.drop m) []
      (s.inBuffer ++ answered s.socket.recvs) coming (fun p _ zs => soup_next_packet p zs) soup.next_nil
      (by rw [hleft, List.append_nil])
    rw [List.append_nil] at hbehind
    obtain ⟨k, hopen, hrecvs, hbuf, hhandled, hfaults, -⟩ := poll_packets h.isOpen hs hr hfront ht
    have hnone : (((sent.drop m).take n).take k).filterMap fault = [] := by
      rw [List.filterMap_eq_nil_iff]
      intro p hp
      exact hsound p (List.mem_of_mem_drop (List.mem_of_mem_take (List.mem_of_mem_take hp)))
    refine ⟨h.handled (min k n) hopen ?_ ?_, by rw [hfaults, hnone]⟩
    · rw [hrecvs, ← List.append_assoc, hbuf, List.append_assoc, hbehind, ← List.flatMap_append, take_drop_append]
    · rwa [← List.take_take]

/-- So does any operation. -/
theorem Hears.step {s : OuchSession} {sent : List Packet} {m : Nat} {coming : Bytes} (h : Hears s sent m coming)
    (hsound : ∀ p ∈ sent, fault p = none) (op : Op) : ∃ m', m ≤ m' ∧ Hears (s.step op) sent m' coming := by
  cases op with
  | beginLogin => exact ⟨m, Nat.le_refl m, h.sameInput (sameInput_beginLogin s)⟩
  | send msg => exact ⟨m, Nat.le_refl m, h.sameInput (sameInput_send s msg)⟩
  | requestLogout => exact ⟨m, Nat.le_refl m, h.sameInput (sameInput_requestLogout s)⟩
  | pollIo => exact (h.poll hsound).1

end BistColo.Ouch.OuchSession
