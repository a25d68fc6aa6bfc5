import BistColo.Mock.LinkOrders
import BistColo.Ouch.Cursor
import BistColo.Ouch.Inbound
/-!
# One numbering at both ends

The mock gateway puts no sequence numbers on its packets: its LoginAccepted says
that number 1 is next, and both ends count from there. `numbers_agree` says that
the cursor of the client is the number of the next message that it will handle,
and, once nothing is on its way, of the next one that the gateway will write.
-/

open StreamKit

namespace BistColo.Mock

open Soup Ouch

/-! ## The session -/

/-- The session was told that it is MOCKSESS01 and at 1, and has counted the
sequenced packets behind that. -/
def Numbered (s : OuchSession) : Prop :=
  ∀ calls, Ouch.dispatched s.log = call LoginDesk.loginAccepted :: calls →
    (∀ c ∈ calls, c.1.packetType ≠ Pkt.loginAccepted) →
    s.assignedSession = ascii "MOCKSESS01" ∧
      s.nextInboundSeq = 1 + UInt64.ofNat (calls.countP fun c => c.1.packetType = Pkt.sequencedData)

section Numbered

variable {s : OuchSession}

theorem Numbered.same {s' : OuchSession} (h : Numbered s) (hcalls : Ouch.dispatched s'.log = Ouch.dispatched s.log)
    (hsession : s'.assignedSession = s.assignedSession) (hseq : s'.nextInboundSeq = s.nextInboundSeq) : Numbered s' := by
  intro calls hlog
  rw [hsession, hseq]
  exact h calls (hcalls.symm.trans hlog)

theorem Numbered.read {s' : OuchSession} {bytes : Bytes} (h : Numbered s) (hr : OuchSession.Read s s' bytes) :
    Numbered s' := by
  refine h.same ?_ hr.assignedSession hr.nextInboundSeq
  rw [← dispatched_inbound, hr.inbound_eq, dispatched_inbound]

/-- The LoginAccepted of the gateway, whatever lies behind it in the buffer. -/
theorem numbered_login {mem : Bytes} (h : mem.take 30 = LoginDesk.loginAccepted.payload) :
    peek mem 0 sessionLen = ascii "MOCKSESS01" ∧ strtoull (peek mem sessionLen sequenceLen ++ [0]) = 1 := by
  have hlen : (mem.take 30).length = 30 := by
    rw [h]
    decide
  have hmem : mem = LoginDesk.loginAccepted.payload ++ mem.drop 30 := by rw [← h, List.take_append_drop]
  have hinside : LoginDesk.loginAccepted.payload.length = 30 := by decide
  rw [hmem, peek_append (by rw [hinside]; decide), peek_append (by rw [hinside]; decide)]
  exact ⟨by decide, by decide⟩

theorem Numbered.take {f : Frame} {rest : Bytes} (hnext : soup.next s.inBuffer = some (f, rest)) (h : Numbered s) :
    Numbered (s.takePacket (Header.read s.inBuffer)).2 := by
  intro calls hcalls hlogin
  rw [OuchSession.dispatched_takePacket hnext] at hcalls
  obtain ⟨-, hsize, hf, -⟩ := Frame.next_eq_some.1 hnext
  have htype : f.packetType = (Header.read s.inBuffer).packetType := congrArg Frame.packetType hf
  unfold OuchSession.takePacket
  dsimp only [OuchSession.erase]
  have hcases := OuchSession.dispatchPacket_cases (s.announce (Header.read s.inBuffer)) (Header.read s.inBuffer).packetType
    (s.inBuffer.drop headerLen) (Header.read s.inBuffer).payloadLen
  cases hold : Ouch.dispatched s.log with
  | nil =>
    -- the packet is the first one
    rw [hold, List.nil_append, List.cons.injEq] at hcalls
    obtain ⟨hcall, hnone⟩ := hcalls
    have hframe : f = LoginDesk.loginAccepted.frame := congrArg Prod.fst hcall
    have hlength : (Header.read s.inBuffer).length = LoginDesk.loginAccepted.header.length :=
      (congrArg Frame.length hf).symm.trans (congrArg Frame.length hframe)
    have hloginType : (Header.read s.inBuffer).packetType = Pkt.loginAccepted :=
      htype.symm.trans (congrArg Frame.packetType hframe)
    have hpayload : (s.inBuffer.drop headerLen).take 30 = LoginDesk.loginAccepted.payload := by
      have hbody : (s.inBuffer.take (Header.read s.inBuffer).packetSize).drop headerLen = LoginDesk.loginAccepted.payload :=
        (congrArg Frame.body hf).symm.trans (congrArg Frame.body hframe)
      have hpacket : (Header.read s.inBuffer).packetSize = 33 := by
        rw [Header.packetSize, hlength]
        decide
      rw [← hbody, hpacket, List.drop_take]
      rfl
    rcases hcases with ⟨-, -, he⟩ | ⟨hother, -⟩ | ⟨-, hshort, -⟩
    · obtain ⟨hsession, hseq⟩ := numbered_login hpayload
      rw [he, ← hnone, hsession, hseq]
      exact ⟨rfl, rfl⟩
    · rw [hloginType] at hother
      exact absurd hother (by decide)
    · have hlen : (Header.read s.inBuffer).payloadLen = 30 := by
        rw [Header.payloadLen, Header.packetSize, hlength]
        decide
      rw [hlen] at hshort
      exact absurd (hshort hloginType) (by decide)
  | cons c cs =>
    rw [hold, List.cons_append, List.cons.injEq] at hcalls
    obtain ⟨rfl, rfl⟩ := hcalls
    obtain ⟨hlogin', hf'⟩ := List.forall_mem_append.1 hlogin
    obtain ⟨hsession, hseq⟩ := h cs hold hlogin'
    have hnot : (Header.read s.inBuffer).packetType ≠ Pkt.loginAccepted := by
      rw [← htype]
      exact hf' _ List.mem_cons_self
    rw [List.countP_append, List.countP_singleton]
    dsimp only
    rw [htype]
    rcases hcases with ⟨hother, -⟩ | ⟨hsequenced, he⟩ | ⟨hother, -, he⟩
    · exact absurd hother hnot
    · obtain ⟨-, hsession', hseq'⟩ := Tally.counted_dispatchOuch (s.announce (Header.read s.inBuffer))
        (s.inBuffer.drop headerLen) (Header.read s.inBuffer).payloadLen
      rw [he, hsequenced]
      refine ⟨hsession'.trans hsession, ?_⟩
      calc _ = s.nextInboundSeq + 1 := hseq'
        _ = 1 + (UInt64.ofNat (cs.countP fun c => c.1.packetType = Pkt.sequencedData) + 1) := by rw [hseq, UInt64.add_assoc]
        _ = 1 + UInt64.ofNat (cs.countP (fun c => c.1.packetType = Pkt.sequencedData) + 1) :=
          congrArg _ (UInt64.ofNat_add _ 1).symm
    · rw [decide_eq_false hother]
      exact ⟨he.assignedSession.trans hsession, he.nextInboundSeq.trans hseq⟩

/-- Every operation of the session goes on counting. -/
theorem Numbered.step (h : Numbered s) (op : OuchSession.Op) : Numbered (s.step op) :=
  OuchSession.inbound_step (fun _ _ _ hr h => h.read hr) (fun _ _ _ hnext h => h.take hnext) op h

end Numbered

/-! ## The gateway -/

namespace Worker

/-- Nothing is sent before the first packet, and no LoginAccepted behind the first answer. -/
structure LoginOnce (w : Worker) : Prop where
  quiet : w.phase = .greeting → w.sent = []
  once : ∀ p ∈ w.sent.drop 1, p.packetType ≠ Pkt.loginAccepted

theorem once_append {sent more : List Packet} (h : ∀ p ∈ sent.drop 1, p.packetType ≠ Pkt.loginAccepted)
    (hmore : ∀ p ∈ more, p.packetType ≠ Pkt.loginAccepted) : ∀ p ∈ (sent ++ more).drop 1, p.packetType ≠ Pkt.loginAccepted := by
  rw [List.drop_append]
  exact List.forall_mem_append.2 ⟨h, fun p hp => hmore p (List.mem_of_mem_drop hp)⟩

theorem LoginOnce.take {w : Worker} (h : w.LoginOnce) (r : PayloadRead) : (w.take r).LoginOnce := by
  refine ⟨fun hphase => absurd hphase (w.phase_take r), ?_⟩
  unfold Worker.take
  cases hphase : w.phase with
  | greeting =>
    dsimp only
    rw [h.quiet hphase, List.nil_append]
    rcases greet_cases w.desk r with ⟨-, -, haccepted⟩ | ⟨-, hrejected⟩
    · rw [haccepted]
      exact List.forall_mem_nil _
    · intro p hp
      rw [hrejected p (List.mem_of_mem_drop hp)]
      decide
  | serving =>
    dsimp only
    split
    · refine once_append h.once ?_
      intro p hp
      rw [List.mem_singleton.1 hp]
      decide
    · split
      · refine once_append h.once ?_
        intro p hp
        obtain ⟨reply, -, rfl⟩ := List.mem_map.1 hp
        exact show Pkt.sequencedData ≠ Pkt.loginAccepted by decide
      · exact h.once
  | closed => exact h.once

theorem LoginOnce.step {w : Worker} (h : w.LoginOnce) (e : Event) : (w.step e).LoginOnce := by
  refine ⟨Link.quiet_step w e h.quiet, ?_⟩
  cases e with
  | arrive bytes => exact h.once
  | turn =>
    rcases w.turn_cases with ⟨-, hstep⟩ | ⟨r, rest, -, -, hstep⟩
    · rw [hstep]
      exact h.once
    · rw [hstep]
      exact (LoginOnce.take (w := { w with inbox := rest }) ⟨h.quiet, h.once⟩ r).once
  | heartbeat =>
    rcases w.heartbeat_cases with ⟨-, hstep⟩ | ⟨-, hstep⟩
    · rw [hstep]
      exact h.once
    · rw [hstep]
      refine once_append h.once ?_
      intro p hp
      rw [List.mem_singleton.1 hp]
      decide

end Worker

/-! ## Both ends -/

namespace Link

/-- What the numbering rests on, at each end. -/
structure Counted (l : Link) : Prop where
  client : Numbered l.session
  gateway : l.worker.LoginOnce

theorem Counted.step {l : Link} (h : Counted l) (e : LinkEvent) : Counted (l.step e) := by
  obtain ⟨hclient, hgateway⟩ := h
  cases e with
  | request now r =>
    refine ⟨?_, hgateway⟩
    change Numbered (l.client.call now r).2.session
    rcases call_session l.client now r with hsame | ⟨-, -, hsends⟩
    · rw [hsame]
      exact hclient
    · rw [hsends]
      exact Numbered.step hclient _
  | session op => exact ⟨Numbered.step hclient op, hgateway⟩
  | grant n => exact ⟨Numbered.same hclient rfl rfl rfl, hgateway⟩
  | carry n => exact ⟨hclient, hgateway.step (.arrive _)⟩
  | turn => exact ⟨hclient, hgateway.step .turn⟩
  | heartbeat => exact ⟨hclient, hgateway.step .heartbeat⟩
  | deliver n =>
    unfold Link.step
    dsimp only
    split
    · exact ⟨hclient, hgateway⟩
    · exact ⟨Numbered.same hclient rfl rfl rfl, hgateway⟩
  | hangUp =>
    unfold Link.step
    dsimp only
    split
    · exact ⟨Numbered.same hclient rfl rfl rfl, hgateway⟩
    · exact ⟨hclient, hgateway⟩

theorem Fresh.counted {l : Link} (h : Fresh l) : Counted l := by
  refine ⟨?_, fun _ => h.sent, ?_⟩
  · intro calls hcalls
    have hlog : l.session.log = [] := h.session.log
    rw [hlog] at hcalls
    nomatch hcalls
  · rw [h.sent]
    exact List.forall_mem_nil _

/-- In every careful run whose login the gateway accepts: the client's cursor is
the session and the number of the next message that it will handle, and, once
nothing is on its way, of the next one that the gateway will write. -/
theorem numbers_agree {l : Link} (h : Fresh l) (events : List LinkEvent) (hrun : AllAlong step Careful l events)
    (haccepted : (StreamKit.run step l events).worker.sent.head? = some LoginDesk.loginAccepted)
    (hheard : Ouch.dispatched (StreamKit.run step l events).session.log ≠ []) :
    let e := StreamKit.run step l events
    e.session.assignedSession = ascii "MOCKSESS01" ∧
      e.session.nextInboundSeq = 1 + UInt64.ofNat (Tally.sequenced e.session.log) ∧
      (e.Settled → e.session.nextInboundSeq =
        1 + UInt64.ofNat (e.worker.sent.countP fun p => p.packetType = Pkt.sequencedData)) := by
  obtain ⟨asked, n, m, hsound⟩ := h.sound.run hrun
  have hcounted : Counted (StreamKit.run step l events) := run_inv_all Counted (fun _ e h => h.step e) h.counted
  have hinOrder := hsound.inOrder h
  dsimp only
  generalize StreamKit.run step l events = e at haccepted hheard hcounted hinOrder ⊢
  obtain ⟨sent, hsent⟩ := List.head?_eq_some_iff.1 haccepted
  -- the first packet dispatched is the LoginAccepted, and none behind it is one
  obtain ⟨c, calls, hcalls⟩ := List.exists_cons_of_ne_nil hheard
  have hprefix := hinOrder.dispatched
  rw [hcalls, hsent, List.map_cons, List.cons_prefix_cons] at hprefix
  obtain ⟨rfl, hbehind⟩ := hprefix
  have hnoLogin : ∀ c ∈ calls, c.1.packetType ≠ Pkt.loginAccepted := by
    intro c hc
    obtain ⟨p, hp, rfl⟩ := List.mem_map.1 (hbehind.subset hc)
    have honce := hcounted.gateway.once
    rw [hsent] at honce
    exact honce p hp
  obtain ⟨hsession, hseq⟩ := hcounted.client calls hcalls hnoLogin
  have hfirst : Tally.sequenced e.session.log = calls.countP fun c => c.1.packetType = Pkt.sequencedData := by
    rw [Tally.sequenced, hcalls, List.countP_cons_of_neg (by decide)]
  refine ⟨hsession, by rw [hseq, hfirst], ?_⟩
  intro hsettled
  have hall := (hinOrder.settled hsettled).2.2.1
  rw [hseq, ← hfirst, Tally.sequenced, hall, List.countP_map]
  rfl

/-- After the login and the two orders of `ordering`. -/
theorem numbers_agree_ordering :
    let e := StreamKit.run step idle ordering
    e.session.assignedSession = ascii "MOCKSESS01" ∧
      e.session.nextInboundSeq = 1 + UInt64.ofNat (Tally.sequenced e.session.log) ∧
      (e.Settled → e.session.nextInboundSeq =
        1 + UInt64.ofNat (e.worker.sent.countP fun p => p.packetType = Pkt.sequencedData)) :=
  numbers_agree idle_fresh ordering ordering_careful (by decide +kernel) (by decide +kernel)

end Link

end BistColo.Mock
