import BistColo.Ouch.Sides
import BistColo.StreamKit.Pipe
import BistColo.StreamKit.Runs
/-!
# The outbound byte stream

The wire and the stash behind it are meant to be a pipe: `write_bytes` offers
a buffer to it and `flush_pending` lets waiting bytes through. `write_bytes`
sends before it looks at the stash, so it is a pipe only for calls made in
turn: with an empty stash, or when the socket takes nothing anyway.
`outbound_in_order` carries this through runs whose writes are all in turn,
and `outbound_overtakes` is a run where a payload overtakes its own header.
-/

open StreamKit

namespace BistColo.Ouch

open Soup Soup.Packet

namespace OuchSession

/-- The bytes on the wire and the bytes stashed behind them. -/
def pipe (s : OuchSession) : Pipe UInt8 := ⟨s.socket.wire, s.outPending⟩

/-- A `write_bytes` call of `buf` that cannot overtake: nothing to write,
nothing stashed, or the socket's next answer is EAGAIN. -/
def InTurn (s : OuchSession) (buf : Bytes) : Prop := buf = [] ∨ s.outPending = [] ∨ s.socket.blocked = true

instance (s : OuchSession) (buf : Bytes) : Decidable (s.InTurn buf) := inferInstanceAs (Decidable (_ ∨ _))

/-! ## One call is one step of the pipe -/

theorem writeBytes_noErrors {s : OuchSession} (h : s.socket.NoSendErrors) (buf : Bytes) :
    s.writeBytes buf = (.ok (), (s.writeBytes buf).2) ∧ (s.writeBytes buf).2.socket.NoSendErrors := by
  obtain ⟨he, hk⟩ := h.drain buf
  unfold writeBytes
  simp only [he]
  split
  · exact ⟨rfl, hk⟩
  · exact ⟨rfl, hk⟩

/-- A call in turn offers its buffer to the pipe and lets some bytes through. -/
theorem writeBytes_refines {s : OuchSession} (h : s.socket.NoSendErrors) {buf : Bytes} (ht : s.InTurn buf) :
    ∃ n, (s.writeBytes buf).2.pipe = (s.pipe.offer buf).pass n := by
  have he := (h.drain buf).1
  have hpipe : (s.writeBytes buf).2.pipe =
      ⟨(s.socket.drain buf).socket.wire, s.outPending ++ (s.socket.drain buf).left⟩ := by
    unfold writeBytes
    simp only [he]
    split
    · rfl
    · rename_i hleft
      rw [not_not] at hleft
      rw [hleft, List.append_nil]
      rfl
  obtain ⟨n, hn, hwire, hleft, -, -⟩ := s.socket.drain_spec buf
  rw [hpipe, hwire, hleft]
  rcases ht with rfl | hempty | hblocked
  · exact ⟨0, by simp [pipe]⟩
  · -- nothing waits, so what the socket takes is the head of the queue
    exact ⟨n, by simp [pipe, Pipe.offer, Pipe.pass, hempty]⟩
  · by_cases hbuf : buf = []
    · exact ⟨0, by simp [pipe, hbuf]⟩
    · obtain ⟨hl, -, hw⟩ := s.socket.drain_blocked h.1 hblocked hbuf
      rw [← hwire, ← hleft, hl, hw]
      exact ⟨0, by simp [pipe, Pipe.offer]⟩

/-- Flushing lets some waiting bytes through. -/
theorem flushPending_refines (s : OuchSession) : ∃ n, s.flushPending.pipe = s.pipe.pass n := by
  obtain ⟨n, -, hwire, hleft, -, -⟩ := s.socket.drain_spec s.outPending
  refine ⟨n, ?_⟩
  rw [pipe, Pipe.pass, flushPending]
  simp only [withSocket, hwire, hleft, pipe]

theorem requests_request (s : OuchSession) (packet : Bytes) :
    (requests (s.emit (.request packet)).log).flatten = (requests s.log).flatten ++ packet := by
  rw [emit, requests_append, List.flatten_append]
  simp [requests]

/-! ## The packets written and waiting -/

/-- No send fails, and wire and stash together hold `asked`. -/
structure Holds (s : OuchSession) (asked : Bytes) : Prop where
  noErrors : s.socket.NoSendErrors
  contents : s.pipe.contents = asked

/-- Wire and stash hold the packets asked for, in order. -/
def Integral (s : OuchSession) : Prop := s.Holds (requests s.log).flatten

theorem Holds.same {s s' : OuchSession} {asked : Bytes} (h : s.Holds asked) (hs : SameOutput s s') : s'.Holds asked :=
  ⟨⟨hs.isOpen.trans h.noErrors.1, by rw [hs.sends]; exact h.noErrors.2⟩,
    by rw [pipe, hs.wire, hs.outPending]; exact h.contents⟩

theorem Integral.same {s s' : OuchSession} (h : s.Integral) (hs : SameOutput s s') : s'.Integral := by
  rw [Integral, hs.requests_eq]
  exact Holds.same h hs

theorem Holds.write {s : OuchSession} {asked buf : Bytes} (h : s.Holds asked) (ht : s.InTurn buf) :
    (s.writeBytes buf).2.Holds (asked ++ buf) := by
  obtain ⟨n, hn⟩ := writeBytes_refines h.noErrors ht
  exact ⟨(writeBytes_noErrors h.noErrors buf).2, by rw [hn, Pipe.contents_pass, Pipe.contents_offer, h.contents]⟩

/-- A packet that is asked for and written in one call. -/
theorem Integral.request {s : OuchSession} (h : s.Integral) {packet : Bytes}
    (ht : (s.emit (.request packet)).InTurn packet) : ((s.emit (.request packet)).writeBytes packet).2.Integral := by
  have hw := Holds.write (s := s.emit (.request packet)) ⟨h.noErrors, h.contents⟩ ht
  rwa [Integral, requests_writeBytes, requests_request]

/-! ## Operations -/

/-- The `write_bytes` calls of an operation: the session each is made on, and
what it is to write. -/
def writes (s : OuchSession) : Op → List (OuchSession × Bytes)
  | .beginLogin =>
    if s.socket.isOpen = false then []
    else
      let req := (loginRequest s.login).bytes
      [((s.setState .loggingIn "sending LoginRequest").emit (.request req), req)]
  | .send m =>
    if s.state ≠ .active then []
    else
      let h := (makeHeader Pkt.unsequencedData (UInt16.ofNat m.bytes.length)).bytes
      let s := s.emit (.request (h ++ m.bytes))
      [(s, h), ((s.writeBytes h).2, m.bytes)]
  | .requestLogout =>
    let req := (makeHeader Pkt.logoutRequest 0).bytes
    [((s.setState .disconnecting "sending LogoutRequest").emit (.request req), req)]
  | .pollIo =>
    match s.readSome with
    | (.error _, _) => []
    | (.ok (), s) =>
      match s.parsePending with
      | (.error _, _) => []
      | (.ok (), s) =>
        let s := s.flushPending
        if s.state = .active ∧ s.heartbeatSendNs.toUInt64 ≤ s.now - s.lastSendNs then
          let hb := (makeHeader Pkt.clientHeartbeat 0).bytes
          [(s.tick.emit (.request hb), hb)]
        else []

/-- Every `write_bytes` call of the operation is made in turn. -/
def WritesInTurn (s : OuchSession) (op : Op) : Prop := ∀ c ∈ s.writes op, c.1.InTurn c.2

instance (s : OuchSession) (op : Op) : Decidable (s.WritesInTurn op) := List.decidableBAll _ _

theorem Integral.send {s : OuchSession} (h : s.Integral) {m : Outgoing} (ht : s.WritesInTurn (.send m)) :
    (s.send m).2.Integral := by
  rw [send_eq]
  unfold sendUnsequenced
  split
  · exact h
  · rename_i hactive
    have hw : s.writes (.send m) = _ := if_neg hactive
    rw [WritesInTurn, hw] at ht
    dsimp only at ht ⊢
    generalize (makeHeader Pkt.unsequencedData (UInt16.ofNat m.bytes.length)).bytes = hdr at ht ⊢
    simp only [List.mem_cons, List.not_mem_nil, or_false, forall_eq_or_imp, forall_eq] at ht
    obtain ⟨ht1, ht2⟩ := ht
    have h1 : (s.emit (.request (hdr ++ m.bytes))).Holds (requests s.log).flatten := ⟨h.noErrors, h.contents⟩
    have h2 := (h1.write ht1).write ht2
    rw [(writeBytes_noErrors h1.noErrors hdr).1]
    rwa [Integral, requests_writeBytes, requests_writeBytes, requests_request, ← List.append_assoc]

theorem Integral.flushPending {s : OuchSession} (h : s.Integral) : s.flushPending.Integral := by
  obtain ⟨n, hn⟩ := flushPending_refines s
  exact ⟨(h.noErrors.drain s.outPending).2, by rw [hn, Pipe.contents_pass]; exact h.contents⟩

theorem Integral.tick {s : OuchSession} (h : s.Integral) : s.tick.Integral := ⟨h.noErrors, h.contents⟩

theorem Integral.tickTimers {s : OuchSession} (h : s.Integral)
    (ht : s.flushPending.state = .active →
      s.flushPending.heartbeatSendNs.toUInt64 ≤ s.flushPending.now - s.flushPending.lastSendNs →
      (s.flushPending.tick.emit (.request (makeHeader Pkt.clientHeartbeat 0).bytes)).InTurn
        (makeHeader Pkt.clientHeartbeat 0).bytes) : s.tickTimers.2.Integral := by
  have hf := h.flushPending
  unfold OuchSession.tickTimers
  dsimp only
  split
  · exact hf
  · rename_i hactive
    rw [not_not] at hactive
    have hh : (s.flushPending.tick.sendHeartbeat s.flushPending.now).2.Integral := by
      unfold sendHeartbeat
      split
      · rename_i hdue
        exact hf.tick.request (ht hactive hdue)
      · exact hf.tick
    split
    · rename_i he
      rwa [he] at hh
    · rename_i he
      rw [he] at hh
      unfold watchdog
      split
      · exact hh.same (sameOutput_setState _ _ _)
      · exact hh

theorem Integral.pollIo {s : OuchSession} (h : s.Integral) (ht : s.WritesInTurn .pollIo) : s.pollIo.2.Integral := by
  have hr := h.same (sameOutput_readSome s)
  rw [WritesInTurn, writes] at ht
  unfold OuchSession.pollIo
  split
  · rename_i he
    rwa [he] at hr
  · rename_i s1 he
    rw [he] at hr ht
    have hp := hr.same (sameOutput_parseLoop s1.inBuffer.length s1)
    dsimp only at ht
    split
    · rename_i hpe
      rw [parsePending] at hpe
      rwa [hpe] at hp
    · rename_i s2 hpe
      rw [hpe] at ht
      rw [parsePending] at hpe
      rw [hpe] at hp
      refine hp.tickTimers ?_
      intro hactive hdue
      dsimp only at ht
      rw [if_pos ⟨hactive, hdue⟩] at ht
      exact ht _ List.mem_cons_self

/-- One operation with all its writes in turn. -/
theorem Integral.step {s : OuchSession} (h : s.Integral) {op : Op} (ht : s.WritesInTurn op) : (s.step op).Integral := by
  cases op with
  | beginLogin =>
    unfold OuchSession.step exec beginLogin
    dsimp only
    rw [WritesInTurn, writes] at ht
    split
    · exact h
    · rename_i hopen
      rw [if_neg hopen] at ht
      exact (h.same (sameOutput_setState s _ _)).request (ht _ List.mem_cons_self)
  | send m => exact h.send ht
  | requestLogout => exact (h.same (sameOutput_setState s _ _)).request (ht _ List.mem_cons_self)
  | pollIo => exact h.pollIo ht

theorem Fresh.integral {s : OuchSession} (h : s.Fresh) (hk : s.socket.NoSendErrors) : s.Integral :=
  ⟨hk, by simp [pipe, Pipe.contents, requests, h.wire, h.outPending, h.log]⟩

/-! ## Runs -/

/-- In a run without send errors whose `write_bytes` calls are all made in
turn, the wire and the stash hold the packets asked for, whole and in order. -/
theorem outbound_in_order {s : OuchSession} {ops : List Op} (hfresh : s.Fresh) (hk : s.socket.NoSendErrors)
    (ht : AllAlong step WritesInTurn s ops) :
    (run step s ops).socket.wire ++ (run step s ops).outPending = (requests (run step s ops).log).flatten := by
  have h := run_inv Integral (fun s op h ht => Integral.step h ht) (hfresh.integral hk) ht
  exact h.contents

/-- A session whose login goes through and whose socket then says EAGAIN once. -/
def stalling : OuchSession :=
  create { sends := [.accept 49, .accept 0, .accept 15]
           recvs := [.data ⟨(loginAccepted (Field.pad 32 10 (ascii "MOCKSESS01"))
             (Field.pad 48 20 (ascii "00000000000000000001"))).encode, by decide, by decide⟩] }
    { reading := fun _ => 0 } { username := ascii "OUCH01", password := ascii "secret" } Soup.heartbeatSendNs

theorem stalling_fresh : stalling.Fresh := ⟨rfl, rfl, rfl, rfl, rfl, rfl, rfl, rfl⟩

theorem stalling_noErrors : stalling.socket.NoSendErrors := by
  refine ⟨rfl, ?_⟩
  intro a ha
  simp only [stalling, create, List.mem_cons, List.not_mem_nil, or_false] at ha
  rcases ha with rfl | rfl | rfl <;> exact ⟨_, rfl⟩

/-- A session whose login goes out in two pieces, and on whose clock a second has
passed at the fifth look. -/
def inPieces : OuchSession :=
  { stalling with
    socket := { stalling.socket with sends := [.accept 20, .accept 29, .accept 3, .accept 15, .accept 3] }
    clock := { reading := fun n => if n < 5 then 0 else 1000000000 } }

/-- The login, the rest of it, a cancel, and a heartbeat. -/
def loginAndCancel : List Op :=
  [.beginLogin, .pollIo, .send (.cancel ⟨MsgType.cancelOrder, OrderToken.ofText (ascii "30")⟩), .pollIo]

theorem inPieces_fresh : inPieces.Fresh := ⟨rfl, rfl, rfl, rfl, rfl, rfl, rfl, rfl⟩

theorem inPieces_noErrors : inPieces.socket.NoSendErrors := by
  refine ⟨rfl, ?_⟩
  intro a ha
  simp only [inPieces, List.mem_cons, List.not_mem_nil, or_false] at ha
  rcases ha with rfl | rfl | rfl | rfl | rfl <;> exact ⟨_, rfl⟩

theorem outbound_in_order_login :
    (run step inPieces loginAndCancel).socket.wire.drop 67 = (makeHeader Pkt.clientHeartbeat 0).bytes ∧
      (run step inPieces loginAndCancel).socket.wire ++ (run step inPieces loginAndCancel).outPending =
        (requests (run step inPieces loginAndCancel).log).flatten :=
  ⟨by decide, outbound_in_order inPieces_fresh inPieces_noErrors (by decide)⟩

/-- The cancel's header meets EAGAIN and is stashed; its payload then goes out
first. -/
theorem outbound_overtakes :
    stalling.Fresh ∧ stalling.socket.NoSendErrors ∧
      let cancel : CancelOrder := ⟨MsgType.cancelOrder, OrderToken.ofText (ascii "30")⟩
      let s := run step stalling [.beginLogin, .pollIo, .send (.cancel cancel)]
      s.socket.wire = (loginRequest s.login).bytes ++ cancel.bytes ∧
      s.outPending = (makeHeader Pkt.unsequencedData 15).bytes ∧
      s.socket.wire ++ s.outPending ≠ (requests s.log).flatten :=
  ⟨stalling_fresh, stalling_noErrors, by decide⟩

end OuchSession

end BistColo.Ouch
