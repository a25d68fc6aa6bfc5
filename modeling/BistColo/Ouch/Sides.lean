import BistColo.Ouch.Session
/-!
# The two sides of a session

Writing leaves alone what the session knows from its input (`SameInput`), and
reading leaves alone its output (`SameOutput`). Every operation but `poll_io`
writes only; `poll_io` reads and then writes. The theorems about one side use
these lemmas for the functions of the other.
-/

open StreamKit

namespace BistColo.Ouch

open Soup

/-! ## Views of the log -/

/-- Entries that the input side makes. -/
def Event.isInbound : Event → Bool
  | .auditRecv .. | .message .. | .dispatch .. | .login .. | .ouch .. => true
  | .stateChange .. | .auditSent .. | .request .. => false

def inbound (log : List Event) : List Event := log.filter Event.isInbound

/-- Entries that a dispatch makes. -/
def Event.isOutcome : Event → Bool
  | .stateChange .. | .message .. | .login .. | .ouch .. => true
  | .auditSent .. | .auditRecv .. | .request .. | .dispatch .. => false

/-- The packets the session was asked to write. -/
def requests (log : List Event) : List Bytes :=
  log.filterMap fun | .request packet => some packet | _ => none

/-- A call of `dispatch_packet`: the packet, the payload length it is told, and
the ranges of the payload it reads. -/
structure DispatchCall where
  frame : Frame
  payloadLen : UInt64
  reads : List (Nat × Nat)
deriving DecidableEq

def dispatchCalls (log : List Event) : List DispatchCall :=
  log.filterMap fun | .dispatch f payloadLen reads => some ⟨f, payloadLen, reads⟩ | _ => none

/-- The packets given to `dispatch_packet`, with the payload length it was told. -/
def dispatched (log : List Event) : List (Frame × UInt64) :=
  (dispatchCalls log).map fun c => (c.frame, c.payloadLen)

/-- The server messages handed to their handlers. -/
def messages (log : List Event) : List (ServerMsg × Bytes) :=
  log.filterMap fun | .message m bytes => some (m, bytes) | _ => none

@[simp] theorem inbound_append (l l' : List Event) : inbound (l ++ l') = inbound l ++ inbound l' := by
  simp [inbound]

@[simp] theorem requests_append (l l' : List Event) : requests (l ++ l') = requests l ++ requests l' := by
  simp [requests]

@[simp] theorem dispatchCalls_append (l l' : List Event) :
    dispatchCalls (l ++ l') = dispatchCalls l ++ dispatchCalls l' := by
  simp [dispatchCalls]

@[simp] theorem dispatched_append (l l' : List Event) : dispatched (l ++ l') = dispatched l ++ dispatched l' := by
  simp [dispatched]

@[simp] theorem messages_append (l l' : List Event) : messages (l ++ l') = messages l ++ messages l' := by
  simp [messages]

theorem isInbound_of_mem {es : List Event} (h : inbound es = []) : ∀ e ∈ es, e.isInbound = false := by
  simpa [inbound] using h

theorem dispatchCalls_inbound (l : List Event) : dispatchCalls (inbound l) = dispatchCalls l := by
  rw [dispatchCalls, inbound, List.filterMap_filter]
  congr 1
  funext e
  cases e <;> rfl

theorem dispatched_inbound (l : List Event) : dispatched (inbound l) = dispatched l := by
  rw [dispatched, dispatchCalls_inbound, dispatched]

theorem messages_inbound (l : List Event) : messages (inbound l) = messages l := by
  rw [messages, inbound, List.filterMap_filter]
  congr 1
  funext e
  cases e <;> rfl

namespace OuchSession

/-- The input side of `s'` is that of `s`. -/
structure SameInput (s s' : OuchSession) : Prop where
  socket : s.socket.SameInput s'.socket
  inBuffer : s'.inBuffer = s.inBuffer
  assignedSession : s'.assignedSession = s.assignedSession
  nextInboundSeq : s'.nextInboundSeq = s.nextInboundSeq
  /-- Only a processed LoginAccepted makes a session Active. -/
  active : s'.state = .active → s.state = .active
  log : ∃ es, s'.log = s.log ++ es ∧ inbound es = []

/-- The output side of `s'` is that of `s`. -/
structure SameOutput (s s' : OuchSession) : Prop where
  isOpen : s'.socket.isOpen = s.socket.isOpen
  sends : s'.socket.sends = s.socket.sends
  wire : s'.socket.wire = s.socket.wire
  outPending : s'.outPending = s.outPending
  log : ∃ es, s'.log = s.log ++ es ∧ requests es = []

theorem SameInput.refl (s : OuchSession) : SameInput s s :=
  ⟨.refl _, rfl, rfl, rfl, id, [], by simp, rfl⟩

theorem SameInput.trans {s s' s'' : OuchSession} (h : SameInput s s') (h' : SameInput s' s'') : SameInput s s'' := by
  obtain ⟨es, hes, hin⟩ := h.log
  obtain ⟨es', hes', hin'⟩ := h'.log
  exact ⟨h.socket.trans h'.socket, h'.inBuffer.trans h.inBuffer, h'.assignedSession.trans h.assignedSession,
    h'.nextInboundSeq.trans h.nextInboundSeq, fun ha => h.active (h'.active ha),
    es ++ es', by rw [hes', hes, List.append_assoc], by rw [inbound_append, hin, hin', List.append_nil]⟩

theorem SameInput.inbound_eq {s s' : OuchSession} (h : SameInput s s') : inbound s'.log = inbound s.log := by
  obtain ⟨es, hes, hin⟩ := h.log
  rw [hes, inbound_append, hin, List.append_nil]

theorem SameOutput.refl (s : OuchSession) : SameOutput s s :=
  ⟨rfl, rfl, rfl, rfl, [], by simp, rfl⟩

theorem SameOutput.trans {s s' s'' : OuchSession} (h : SameOutput s s') (h' : SameOutput s' s'') :
    SameOutput s s'' := by
  obtain ⟨es, hes, hr⟩ := h.log
  obtain ⟨es', hes', hr'⟩ := h'.log
  exact ⟨h'.isOpen.trans h.isOpen, h'.sends.trans h.sends, h'.wire.trans h.wire,
    h'.outPending.trans h.outPending,
    es ++ es', by rw [hes', hes, List.append_assoc], by rw [requests_append, hr, hr', List.append_nil]⟩

theorem SameOutput.requests_eq {s s' : OuchSession} (h : SameOutput s s') : requests s'.log = requests s.log := by
  obtain ⟨es, hes, hr⟩ := h.log
  rw [hes, requests_append, hr, List.append_nil]

/-! ## Small steps -/

/-- Entries of the other kinds leave the input side alone. -/
theorem sameInput_emit (s : OuchSession) {e : Event} (h : e.isInbound = false) : SameInput s (s.emit e) :=
  ⟨.refl _, rfl, rfl, rfl, id, [e], rfl, by simp [inbound, h]⟩

theorem sameInput_setState (s : OuchSession) {st : SessionState} (detail : String) (h : st ≠ .active) :
    SameInput s (s.setState st detail) :=
  ⟨.refl _, rfl, rfl, rfl, fun ha => absurd ha h, [.stateChange st detail], rfl, rfl⟩

theorem sameOutput_emit (s : OuchSession) {e : Event} (h : requests [e] = []) : SameOutput s (s.emit e) :=
  ⟨rfl, rfl, rfl, rfl, [e], rfl, h⟩

theorem sameOutput_setState (s : OuchSession) (st : SessionState) (detail : String) :
    SameOutput s (s.setState st detail) :=
  ⟨rfl, rfl, rfl, rfl, [.stateChange st detail], rfl, rfl⟩

/-! ## Writing leaves the input alone -/

theorem sameInput_withSocket (s : OuchSession) {k : TcpSocket} (h : s.socket.SameInput k) :
    SameInput s (s.withSocket k) :=
  ⟨h, rfl, rfl, rfl, id, [], (List.append_nil _).symm, rfl⟩

theorem sameInput_stash (s : OuchSession) (bytes : Bytes) : SameInput s (s.stash bytes) :=
  ⟨.refl _, rfl, rfl, rfl, id, [], (List.append_nil _).symm, rfl⟩

theorem sameInput_tick (s : OuchSession) : SameInput s s.tick :=
  ⟨.refl _, rfl, rfl, rfl, id, [], (List.append_nil _).symm, rfl⟩

theorem sameInput_wrote (s : OuchSession) (buf : Bytes) : SameInput s (s.wrote buf) :=
  ⟨.refl _, rfl, rfl, rfl, id, [.auditSent buf], rfl, rfl⟩

theorem sameInput_writeBytes (s : OuchSession) (buf : Bytes) : SameInput s (s.writeBytes buf).2 := by
  obtain ⟨-, -, -, -, -, hk⟩ := s.socket.drain_spec buf
  have hs := sameInput_withSocket s hk
  unfold writeBytes
  dsimp only
  split
  · exact hs
  · split
    · exact hs.trans (sameInput_stash _ _)
    · exact hs.trans (sameInput_wrote _ _)

theorem sameInput_request (s : OuchSession) (packet buf : Bytes) :
    SameInput s ((s.emit (.request packet)).writeBytes buf).2 :=
  (sameInput_emit s rfl).trans (sameInput_writeBytes _ buf)

theorem sameInput_sendUnsequenced (s : OuchSession) (payload : Bytes) : SameInput s (s.sendUnsequenced payload).2 := by
  unfold sendUnsequenced
  split
  · exact .refl s
  · dsimp only
    have h := sameInput_request s ((makeHeader Pkt.unsequencedData (UInt16.ofNat payload.length)).bytes ++ payload)
      (makeHeader Pkt.unsequencedData (UInt16.ofNat payload.length)).bytes
    split
    · rename_i hw
      rwa [hw] at h
    · rename_i hw
      rw [hw] at h
      exact h.trans (sameInput_writeBytes _ payload)

theorem sameInput_send (s : OuchSession) (m : Outgoing) : SameInput s (s.send m).2 := by
  rw [send_eq]
  exact sameInput_sendUnsequenced s m.bytes

theorem sameInput_beginLogin (s : OuchSession) : SameInput s s.beginLogin.2 := by
  unfold beginLogin
  split
  · exact .refl s
  · exact (sameInput_setState s "sending LoginRequest" (by decide)).trans (sameInput_request _ _ _)

theorem sameInput_requestLogout (s : OuchSession) : SameInput s s.requestLogout.2 :=
  (sameInput_setState s "sending LogoutRequest" (by decide)).trans (sameInput_request _ _ _)

theorem sameInput_flushPending (s : OuchSession) : SameInput s s.flushPending := by
  obtain ⟨-, -, -, -, -, hk⟩ := s.socket.drain_spec s.outPending
  exact ⟨hk, rfl, rfl, rfl, id, [], (List.append_nil _).symm, rfl⟩

theorem sameInput_sendHeartbeat (s : OuchSession) (now : UInt64) : SameInput s (s.sendHeartbeat now).2 := by
  unfold sendHeartbeat
  split
  · exact sameInput_request _ _ _
  · exact .refl s

theorem sameInput_watchdog (s : OuchSession) (now : UInt64) : SameInput s (s.watchdog now).2 := by
  unfold watchdog
  split
  · exact sameInput_setState _ _ (by decide)
  · exact .refl s

theorem sameInput_tickTimers (s : OuchSession) : SameInput s s.tickTimers.2 := by
  have hf := sameInput_flushPending s
  unfold tickTimers
  dsimp only
  split
  · exact hf
  · have hh := (hf.trans (sameInput_tick _)).trans (sameInput_sendHeartbeat s.flushPending.tick s.flushPending.now)
    split
    · rename_i h
      rwa [h] at hh
    · rename_i h
      rw [h] at hh
      exact hh.trans (sameInput_watchdog _ _)

/-- A write asks for nothing by itself. -/
theorem requests_writeBytes (s : OuchSession) (buf : Bytes) : requests (s.writeBytes buf).2.log = requests s.log := by
  unfold writeBytes
  dsimp only
  split
  · rfl
  · split
    · rfl
    · rw [wrote, emit, requests_append]
      exact List.append_nil _

/-! ## Reading leaves the output alone -/

theorem sameOutput_withRecv (s : OuchSession) : SameOutput s (s.withSocket s.socket.recv.2) := by
  have hk : s.socket.recv.2.isOpen = s.socket.isOpen ∧ s.socket.recv.2.sends = s.socket.sends ∧
      s.socket.recv.2.wire = s.socket.wire := by
    unfold TcpSocket.recv
    split
    · exact ⟨rfl, rfl, rfl⟩
    · split <;> exact ⟨rfl, rfl, rfl⟩
  exact ⟨hk.1, hk.2.1, hk.2.2, rfl, [], (List.append_nil _).symm, rfl⟩

theorem sameOutput_append (s : OuchSession) (bytes : Bytes) : SameOutput s (s.append bytes) :=
  ⟨rfl, rfl, rfl, rfl, [], (List.append_nil _).symm, rfl⟩

/-- What the turns of the read loop keep, the loop keeps. -/
theorem readLoop_inv {I : OuchSession → Prop} (hrecv : ∀ s, I s → I (s.withSocket s.socket.recv.2))
    (hclosed : ∀ s, I s → I (s.setState .disconnected "peer closed")) (happend : ∀ s bytes, I s → I (s.append bytes))
    (fuel : Nat) {s : OuchSession} (h : I s) : I (s.readLoop fuel).2 := by
  induction fuel generalizing s with
  | zero => exact h
  | succ fuel ih =>
    have hs := hrecv s h
    rw [readLoop]
    split
    · rename_i e k hr
      rw [hr] at hs
      split
      · exact hclosed _ hs
      · exact hs
    · rename_i bytes k hr
      rw [hr] at hs
      split
      · exact hs
      · exact ih (happend _ bytes hs)

theorem sameOutput_readLoop (fuel : Nat) (s : OuchSession) : SameOutput s (s.readLoop fuel).2 := by
  refine readLoop_inv ?_ ?_ ?_ fuel (.refl s)
  · intro s' h
    exact h.trans (sameOutput_withRecv s')
  · intro s' h
    exact h.trans (sameOutput_setState s' _ _)
  · intro s' bytes h
    exact h.trans (sameOutput_append s' bytes)

theorem sameOutput_readSome (s : OuchSession) : SameOutput s s.readSome.2 := by
  unfold readSome
  split
  · exact .refl s
  · exact sameOutput_readLoop _ s

/-! ## What a dispatch does -/

/-- A dispatch that is neither a login nor a sequenced packet: the cursor stays
and the session does not become Active by it. -/
structure Passive (s s' : OuchSession) : Prop where
  socket : s'.socket = s.socket
  inBuffer : s'.inBuffer = s.inBuffer
  outPending : s'.outPending = s.outPending
  assignedSession : s'.assignedSession = s.assignedSession
  nextInboundSeq : s'.nextInboundSeq = s.nextInboundSeq
  active : s'.state = .active → s.state = .active
  log : ∃ es, s'.log = s.log ++ es ∧ inbound es = [] ∧ requests es = []

theorem passive_countRecv (s : OuchSession) : Passive s s.countRecv :=
  ⟨rfl, rfl, rfl, rfl, rfl, id, [], (List.append_nil _).symm, rfl, rfl⟩

theorem passive_rejectLogin (s : OuchSession) (reason : UInt8) (detail : String) :
    Passive s (s.countRecv.rejectLogin reason detail) :=
  ⟨rfl, rfl, rfl, rfl, rfl, nofun, [.stateChange .failed detail], rfl, rfl, rfl⟩

theorem passive_endOfSession (s : OuchSession) : Passive s (s.countRecv.setState .disconnected "EndOfSession") :=
  ⟨rfl, rfl, rfl, rfl, rfl, nofun, [.stateChange .disconnected "EndOfSession"], rfl, rfl, rfl⟩

/-- The cases of `dispatch_ouch`: an error and nothing done, or the one handler
call for a message of known type and exact size. -/
theorem dispatchOuch_cases (s : OuchSession) (mem : Bytes) (payloadLen : UInt64) :
    (∃ detail, s.dispatchOuch mem payloadLen = (.error (makeError .protocol detail), s)) ∨
      ∃ m, s.dispatchOuch mem payloadLen = (.ok (), s.emit (.message m (peek mem 0 m.size))) := by
  unfold dispatchOuch
  split
  · exact .inl ⟨_, rfl⟩
  · dsimp only
    split
    · exact .inl ⟨_, rfl⟩
    · split
      · exact .inl ⟨_, rfl⟩
      · exact .inr ⟨_, rfl⟩

/-- The cases of `dispatch_packet`: a login, a sequenced packet, or neither. -/
theorem dispatchPacket_cases (s : OuchSession) (type : UInt8) (mem : Bytes) (payloadLen : UInt64) :
    (type = Pkt.loginAccepted ∧ UInt64.ofNat (sessionLen + sequenceLen) ≤ payloadLen ∧
      s.dispatchPacket type mem payloadLen = (.ok (), s.countRecv.acceptLogin (peek mem 0 sessionLen)
        (strtoull (peek mem sessionLen sequenceLen ++ [0])))) ∨
    (type = Pkt.sequencedData ∧
      s.dispatchPacket type mem payloadLen = s.countRecv.countSequenced.dispatchOuch mem payloadLen) ∨
    (type ≠ Pkt.sequencedData ∧
      (type = Pkt.loginAccepted → payloadLen < UInt64.ofNat (sessionLen + sequenceLen)) ∧
      Passive s (s.dispatchPacket type mem payloadLen).2) := by
  unfold dispatchPacket
  dsimp only
  by_cases hA : type = Pkt.loginAccepted
  · rw [if_pos hA]
    split
    · rename_i hlen
      exact .inr (.inr ⟨by rw [hA]; decide, fun _ => hlen, passive_countRecv s⟩)
    · rename_i hlen
      exact .inl ⟨hA, UInt64.not_lt.1 hlen, rfl⟩
  · rw [if_neg hA]
    by_cases hS : type = Pkt.sequencedData
    · subst hS
      exact .inr (.inl ⟨rfl, rfl⟩)
    · refine .inr (.inr ⟨hS, fun h => absurd h hA, ?_⟩)
      -- a rejection, a heartbeat, the end of the session, a debug packet or none that is known
      rw [if_neg hS]
      split
      · split
        · exact passive_rejectLogin ..
        · exact passive_rejectLogin ..
      · split
        · exact passive_countRecv s
        · split
          · exact passive_endOfSession s
          · split
            · exact passive_countRecv s
            · exact passive_countRecv s

/-- A dispatch leaves the sending side alone, and logs what comes of the packet. -/
structure Dispatches (s s' : OuchSession) : Prop where
  socket : s'.socket = s.socket
  clock : s'.clock = s.clock
  outPending : s'.outPending = s.outPending
  heartbeatSendNs : s'.heartbeatSendNs = s.heartbeatSendNs
  lastSendNs : s'.lastSendNs = s.lastSendNs
  msgsSent : s'.msgsSent = s.msgsSent
  log : ∃ es, s'.log = s.log ++ es ∧ ∀ e ∈ es, e.isOutcome = true

theorem Dispatches.trans {s s' s'' : OuchSession} (h : Dispatches s s') (h' : Dispatches s' s'') : Dispatches s s'' := by
  obtain ⟨es, hes, hkinds⟩ := h.log
  obtain ⟨es', hes', hkinds'⟩ := h'.log
  refine ⟨h'.socket.trans h.socket, h'.clock.trans h.clock, h'.outPending.trans h.outPending,
    h'.heartbeatSendNs.trans h.heartbeatSendNs, h'.lastSendNs.trans h.lastSendNs, h'.msgsSent.trans h.msgsSent,
    es ++ es', by rw [hes', hes, List.append_assoc], ?_⟩
  rw [List.forall_mem_append]
  exact ⟨hkinds, hkinds'⟩

theorem dispatches_emit (s : OuchSession) {e : Event} (h : e.isOutcome = true) : Dispatches s (s.emit e) :=
  ⟨rfl, rfl, rfl, rfl, rfl, rfl, [e], rfl, by simpa using h⟩

theorem dispatches_setState (s : OuchSession) (st : SessionState) (detail : String) :
    Dispatches s (s.setState st detail) :=
  ⟨rfl, rfl, rfl, rfl, rfl, rfl, [.stateChange st detail], rfl, by simp [Event.isOutcome]⟩

theorem dispatches_dispatchPacket (s : OuchSession) (type : UInt8) (mem : Bytes) (payloadLen : UInt64) :
    Dispatches s (s.dispatchPacket type mem payloadLen).2 := by
  have hcount : Dispatches s s.countRecv := ⟨rfl, rfl, rfl, rfl, rfl, rfl, [], (List.append_nil _).symm, nofun⟩
  have hreject : ∀ reason detail, Dispatches s (s.countRecv.rejectLogin reason detail) := by
    intro reason detail
    have hreason : Dispatches s { s.countRecv with lastLoginRejectReason := reason } :=
      ⟨rfl, rfl, rfl, rfl, rfl, rfl, [], (List.append_nil _).symm, nofun⟩
    exact hreason.trans (dispatches_setState _ _ _)
  have haccept : ∀ session seq, Dispatches s (s.countRecv.acceptLogin session seq) := by
    intro session seq
    have hcursor : Dispatches s
        { s.countRecv with assignedSession := session, nextInboundSeq := seq, lastLoginRejectReason := 0 } :=
      ⟨rfl, rfl, rfl, rfl, rfl, rfl, [], (List.append_nil _).symm, nofun⟩
    exact (hcursor.trans (dispatches_emit _ rfl)).trans (dispatches_setState _ _ _)
  have hsequenced : Dispatches s s.countRecv.countSequenced := by
    have hseq : Dispatches s { s.countRecv with nextInboundSeq := s.countRecv.nextInboundSeq + 1 } :=
      ⟨rfl, rfl, rfl, rfl, rfl, rfl, [], (List.append_nil _).symm, nofun⟩
    exact hseq.trans (dispatches_emit _ rfl)
  unfold dispatchPacket
  dsimp only
  split
  · -- a LoginAccepted, complete or not
    split
    · exact hcount
    · exact haccept _ _
  · split
    · split
      · exact hreject _ _
      · exact hreject _ _
    · split
      · exact hcount
      · split
        · exact hcount.trans (dispatches_setState _ _ _)
        · split
          · rcases dispatchOuch_cases s.countRecv.countSequenced mem payloadLen with ⟨detail, h⟩ | ⟨m, h⟩
            · rw [h]
              exact hsequenced
            · rw [h]
              exact hsequenced.trans (dispatches_emit _ rfl)
          · split
            · exact hcount
            · exact hcount

theorem sameOutput_dispatchPacket (s : OuchSession) (type : UInt8) (mem : Bytes) (payloadLen : UInt64) :
    SameOutput s (s.dispatchPacket type mem payloadLen).2 := by
  have h := dispatches_dispatchPacket s type mem payloadLen
  obtain ⟨es, hlog, hes⟩ := h.log
  refine ⟨by rw [h.socket], by rw [h.socket], by rw [h.socket], h.outPending, es, hlog, ?_⟩
  rw [requests, List.filterMap_eq_nil_iff]
  intro e he
  have hkind := hes e he
  cases e <;> first | rfl | cases hkind

theorem sameOutput_takePacket (s : OuchSession) (h : Header) : SameOutput s (s.takePacket h).2 := by
  have hs : ∀ s' n, SameOutput s s' → SameOutput s (s'.erase n) :=
    fun s' n h' => ⟨h'.isOpen, h'.sends, h'.wire, h'.outPending, h'.log⟩
  exact hs _ _ (((sameOutput_emit s rfl).trans (sameOutput_emit _ rfl)).trans (sameOutput_dispatchPacket ..))

/-- What taking a packet keeps, the parse loop keeps. -/
theorem parseLoop_inv {I : OuchSession → Prop} (htake : ∀ s h, I s → I (s.takePacket h).2) (fuel : Nat) {s : OuchSession}
    (h : I s) : I (s.parseLoop fuel).2 := by
  induction fuel generalizing s with
  | zero => exact h
  | succ fuel ih =>
    rw [parseLoop]
    split
    · exact h
    · dsimp only
      split
      · exact h
      · have ht := htake s (Header.read s.inBuffer) h
        split
        · rename_i he
          rwa [he] at ht
        · rename_i he
          rw [he] at ht
          exact ih ht

theorem sameOutput_parseLoop (fuel : Nat) (s : OuchSession) : SameOutput s (s.parseLoop fuel).2 := by
  refine parseLoop_inv ?_ fuel (.refl s)
  intro s' hdr h
  exact h.trans (sameOutput_takePacket s' hdr)

end OuchSession

end BistColo.Ouch
