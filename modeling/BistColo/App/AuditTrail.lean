import BistColo.Observability.AuditLog
import BistColo.Ouch.AuditCalls
import BistColo.Ouch.States
/-!
# The audit trail of a live session

The audit handlers of `run_live` (`apps/bist_colo.cpp`). A handler makes the
record of the span it is given, and that is not always the message: the span of
a received packet begins with the packet's header, and a sent message is the
second of two spans. `audit_trail_iff` says in which runs each message has its
record and the file can be read back.
-/

open StreamKit

namespace BistColo.App

open Ouch Ouch.OuchSession Observability Soup

/-! ## The handlers -/

/-- What goes on around the calls of `record`: the wall clock at the n-th call,
and the turns of the worker before it. -/
structure Around where
  wallNs : Nat → UInt64
  turns : Nat → List AuditLog.Turn

/-- The log, with the number of calls so far and `outbound_msgs_sent()`. -/
structure Auditing where
  audit : AuditLog := {}
  calls : Nat := 0
  msgsSent : UInt64 := 0

def channel : Bytes := ascii "OUCH-OE"

namespace Auditing

/-- The log that the next call of `record` meets. -/
def ready (w : Around) (a : Auditing) : AuditLog := run AuditLog.turn a.audit (w.turns a.calls)

/-- `on_audit_sent` and `on_audit_recv`. A record for which the queue is full is dropped. -/
def onAudit (w : Around) (a : Auditing) : AuditCall → Auditing
  | .sent bytes =>
    { audit := ((a.ready w).record (w.wallNs a.calls) .sent channel (a.msgsSent + 1) bytes).2
      calls := a.calls + 1
      msgsSent := a.msgsSent + 1 }
  | .recv bytes seq =>
    { audit := ((a.ready w).record (w.wallNs a.calls) .recv channel seq bytes).2
      calls := a.calls + 1
      msgsSent := a.msgsSent }

/-- The record that the handler makes. -/
def recordOf (w : Around) (a : Auditing) : AuditCall → AuditRecord
  | .sent bytes => .ofSpan (w.wallNs a.calls) .sent channel (a.msgsSent + 1) bytes
  | .recv bytes seq => .ofSpan (w.wallNs a.calls) .recv channel seq bytes

theorem audit_onAudit (w : Around) (a : Auditing) (c : AuditCall) :
    (a.onAudit w c).audit = ((a.ready w).tryPush (a.recordOf w c)).2 := by
  cases c <;> rfl

theorem clean_recordOf (w : Around) (a : Auditing) (c : AuditCall) : (a.recordOf w c).Clean := by
  have hchannel : ∀ b ∈ channel, Solid b := solid_of_all (by decide)
  cases c <;> exact AuditRecord.clean_ofSpan _ _ hchannel _ _

theorem type_recordOf (w : Around) (a : Auditing) (c : AuditCall) :
    (a.recordOf w c).type = 10 ↔ c.bytes.head? = some 10 := by
  have hhead : (a.recordOf w c).type = c.bytes.headD 0 := by cases c <;> rfl
  rw [hhead]
  cases c.bytes with
  | nil => simp
  | cons b bs => simp

/-- The records that find room, of some calls. -/
def accepted (w : Around) : Auditing → List AuditCall → List AuditRecord
  | _, [] => []
  | a, c :: cs => (if (a.ready w).HasRoom then [a.recordOf w c] else []) ++ accepted w (a.onAudit w c) cs

theorem accepted_append (w : Around) (a : Auditing) (cs cs' : List AuditCall) :
    accepted w a (cs ++ cs') = accepted w a cs ++ accepted w (run (onAudit w) a cs) cs' := by
  induction cs generalizing a with
  | nil => rfl
  | cons c cs ih => rw [List.cons_append, accepted, accepted, ih, run_cons, List.append_assoc]

theorem recorded_run (w : Around) (a : Auditing) (cs : List AuditCall) :
    (run (onAudit w) a cs).audit.recorded = a.audit.recorded ++ accepted w a cs := by
  induction cs generalizing a with
  | nil => exact (List.append_nil _).symm
  | cons c cs ih =>
    have hready : (a.ready w).recorded = a.audit.recorded := AuditLog.recorded_turns _ _
    rw [run_cons, ih, accepted, ← List.append_assoc]
    congr 1
    rw [audit_onAudit]
    split
    · rename_i hroom
      rw [AuditLog.tryPush_room hroom, ← hready]
    · rename_i hroom
      rw [AuditLog.tryPush_full hroom, hready, List.append_nil]

/-! ## The file -/

/-- The worker writes what it takes before the call, and the call makes one line if it makes a record. -/
def OneLine (w : Around) (a : Auditing) (c : AuditCall) : Prop :=
  AllAlong AuditLog.turn AuditLog.Writes a.audit (w.turns a.calls) ∧ ((a.ready w).HasRoom → c.bytes.head? ≠ some 10)

/-- The log after `stop`, which lets the worker make its last turns. -/
def finish (w : Around) (a : Auditing) : AuditLog := (a.ready w).stop

/-- The worker writes all it takes in its last turns. -/
def WritesLast (w : Around) (a : Auditing) : Prop :=
  AllAlong AuditLog.turn AuditLog.Writes a.audit
    (w.turns a.calls ++ List.replicate (a.ready w).queue.length AuditLog.Turn.pop)

theorem sound_onAudit {w : Around} {a : Auditing} {c : AuditCall} (h : a.audit.Sound) (hl : OneLine w a c) :
    (a.onAudit w c).audit.Sound := by
  rw [audit_onAudit]
  apply (h.turns hl.1).push (clean_recordOf w a c)
  intro hroom htype
  exact hl.2 hroom ((type_recordOf w a c).1 htype)

theorem broken_onAudit {w : Around} {a : Auditing} (h : a.audit.Broken) (c : AuditCall) :
    (a.onAudit w c).audit.Broken := by
  rw [audit_onAudit]
  exact (h.turns _).push (clean_recordOf w a c)

theorem breaks_onAudit {w : Around} {a : Auditing} {c : AuditCall} (h : a.audit.Sound) (hl : ¬ OneLine w a c) :
    (a.onAudit w c).audit.Broken := by
  rw [audit_onAudit]
  by_cases hw : AllAlong AuditLog.turn AuditLog.Writes a.audit (w.turns a.calls)
  · simp only [OneLine, hw, true_and, Classical.not_imp, not_not] at hl
    exact (h.turns hw).breaks (clean_recordOf w a c) hl.1 ((type_recordOf w a c).2 hl.2)
  · exact (h.turns_lose hw).push (clean_recordOf w a c)

/-- The file tells of all records exactly when each call made one line and all were written. -/
theorem tells_iff {w : Around} {a : Auditing} (h : a.audit.Sound) (cs : List AuditCall) :
    (finish w (run (onAudit w) a cs)).Tells ↔
      AllAlong (onAudit w) (OneLine w) a cs ∧ WritesLast w (run (onAudit w) a cs) := by
  have hq := AuditLog.queue_stop ((run (onAudit w) a cs).ready w)
  have hfinish : finish w (run (onAudit w) a cs) = run AuditLog.turn (run (onAudit w) a cs).audit
      (w.turns (run (onAudit w) a cs).calls ++
        List.replicate ((run (onAudit w) a cs).ready w).queue.length AuditLog.Turn.pop) := by
    rw [run_append]
    rfl
  change (finish w (run (onAudit w) a cs)).queue = [] at hq
  by_cases hall : AllAlong (onAudit w) (OneLine w) a cs
  · have hs : (run (onAudit w) a cs).audit.Sound :=
      run_inv (fun a : Auditing => a.audit.Sound) (fun _ _ h hl => sound_onAudit h hl) h hall
    by_cases hlast : WritesLast w (run (onAudit w) a cs)
    · have hf := hs.turns hlast
      rw [← hfinish] at hf
      exact iff_of_true (hf.tells hq) ⟨hall, hlast⟩
    · have hf := hs.turns_lose hlast
      rw [← hfinish] at hf
      exact iff_of_false (hf.not_tells hq) fun h => hlast h.2
  · have hb : (run (onAudit w) a cs).audit.Broken :=
      run_breaks (fun a : Auditing => a.audit.Sound) (fun a => a.audit.Broken) (fun _ _ h hl => sound_onAudit h hl)
        (fun _ _ h hl => breaks_onAudit h hl) (fun _ c h => broken_onAudit h c) h hall
    have hf := hb.turns (w.turns (run (onAudit w) a cs).calls ++
        List.replicate ((run (onAudit w) a cs).ready w).queue.length AuditLog.Turn.pop)
    rw [← hfinish] at hf
    exact iff_of_false (hf.not_tells hq) fun h => hall h.1

/-! ## The session -/

/-- The log after what a session did. -/
def auditing (w : Around) (log : List Event) : Auditing := run (onAudit w) {} (auditCalls log)

theorem auditing_calls (w : Around) {s s' : OuchSession} {cs : List AuditCall} (h : Calls s s' cs) :
    auditing w s'.log = run (onAudit w) (auditing w s.log) cs := by
  rw [auditing, h.log, run_append]
  rfl

/-- The records of what the session did between two of its states. -/
def recordsSince (w : Around) (s s' : OuchSession) : List AuditRecord :=
  (auditing w s'.log).audit.recorded.drop (auditing w s.log).audit.recorded.length

theorem recordsSince_calls (w : Around) {s s' : OuchSession} {cs : List AuditCall} (h : Calls s s' cs) :
    recordsSince w s s' = accepted w (auditing w s.log) cs := by
  rw [recordsSince, auditing_calls w h, recorded_run, List.drop_left]

/-! ## Messages and their records -/

/-- The record has the direction, the type byte and the hex dump of a message. -/
def Shows (r : AuditRecord) (dir : AuditDirection) (message : Bytes) : Prop :=
  r.dir = dir ∧ message.head? = some r.type ∧ r.hex = hexDump message

instance (r : AuditRecord) (dir : AuditDirection) (message : Bytes) : Decidable (Shows r dir message) :=
  inferInstanceAs (Decidable (_ ∧ _))

/-- The packet at the front of the buffer carries a sequenced OUCH message. -/
def HoldsMessage (t : OuchSession) (message : Bytes) : Prop :=
  ∃ f rest, soup.next t.inBuffer = some (f, rest) ∧ f.packetType = Pkt.sequencedData ∧ f.body = message ∧ message ≠ []

/-- Taking the packet makes exactly one record of its message, with its number. -/
def IdentifiesRecv (w : Around) (t : OuchSession) : Prop :=
  ∀ message, HoldsMessage t message →
    (recordsSince w t (t.takePacket (Header.read t.inBuffer)).2).countP
      (fun r => Shows r .recv message ∧ r.seq = t.nextInboundSeq) = 1

/-- Sending a message makes exactly one record of it. -/
def IdentifiesSent (w : Around) (s : OuchSession) (op : Op) : Prop :=
  ∀ m, op = .send m → m.bytes ≠ [] → (s.exec op).1 = .ok () →
    (recordsSince w s (s.step op)).countP (fun r => Shows r .sent m.bytes) = 1

/-- Each message of the operation has its record. -/
def Identifies (w : Around) (s : OuchSession) (op : Op) : Prop :=
  (∀ t ∈ s.takes op, IdentifiesRecv w t) ∧ IdentifiesSent w s op

/-- A span that begins with a packet header is not the hex dump of what follows it. -/
theorem identifiesRecv_iff (w : Around) (t : OuchSession) : IdentifiesRecv w t ↔ ∀ message, ¬ HoldsMessage t message := by
  constructor
  · intro h message hm
    have hone := h message hm
    obtain ⟨f, rest, hn, -, hbody, hne⟩ := hm
    obtain ⟨-, hsize, hf, -⟩ := Frame.next_eq_some.1 hn
    have hlen : (t.inBuffer.take (Header.read t.inBuffer).packetSize).length ≠ message.length := by
      rw [hf] at hbody
      have hpos := List.length_pos_iff.2 hne
      rw [← hbody, List.length_drop] at hpos ⊢
      simp only [headerLen] at hpos ⊢
      omega
    have hzero : (recordsSince w t (t.takePacket (Header.read t.inBuffer)).2).countP
        (fun r => Shows r .recv message ∧ r.seq = t.nextInboundSeq) = 0 := by
      rw [recordsSince_calls w (calls_takePacket t), List.countP_eq_zero]
      intro r hr hshows
      have hrec : r = recordOf w (auditing w t.log) t.packetCall := by
        simp only [accepted, List.append_nil] at hr
        split at hr
        · exact List.mem_singleton.1 hr
        · cases hr
      have hhex := (of_decide_eq_true hshows).1.2.2
      rw [hrec] at hhex
      have hhexlen := congrArg List.length hhex
      rw [length_hexDump] at hhexlen
      change (hexDump (t.inBuffer.take (Header.read t.inBuffer).packetSize)).length = _ at hhexlen
      rw [length_hexDump] at hhexlen
      omega
    rw [hzero] at hone
    cases hone
  · intro h message hm
    exact absurd hm (h message)

/-! ### Sends -/

/-- The write of a buffer is audited, and its record finds room. -/
def Heard (w : Around) (a : Auditing) (k : TcpSocket) (buf : Bytes) : Prop :=
  (k.drain buf).left = [] ∧ (a.ready w).HasRoom

instance (w : Around) (a : Auditing) (k : TcpSocket) (buf : Bytes) : Decidable (Heard w a k buf) :=
  inferInstanceAs (Decidable (_ ∧ _))

theorem accepted_told (w : Around) (a : Auditing) (k : TcpSocket) (buf : Bytes) :
    accepted w a (told k buf) = if Heard w a k buf then [a.recordOf w (.sent buf)] else [] := by
  unfold told Heard
  by_cases hleft : (k.drain buf).left = []
  · by_cases hroom : (a.ready w).HasRoom
    · simp [accepted, hleft, hroom]
    · simp [accepted, hleft, hroom]
  · simp [accepted, hleft]

theorem shows_sent (w : Around) (a : Auditing) (buf : Bytes) {message : Bytes} (h : message ≠ []) :
    Shows (a.recordOf w (.sent buf)) .sent message ↔ buf = message := by
  constructor
  · rintro ⟨-, -, hhex⟩
    exact hexDump_injective hhex
  · rintro rfl
    obtain ⟨b, bs, rfl⟩ := List.exists_cons_of_ne_nil h
    exact ⟨rfl, rfl, rfl⟩

theorem countP_told (w : Around) (a : Auditing) (k : TcpSocket) (buf : Bytes) {message : Bytes} (h : message ≠ []) :
    (accepted w a (told k buf)).countP (fun r => Shows r .sent message) =
      if Heard w a k buf ∧ buf = message then 1 else 0 := by
  rw [accepted_told]
  have hshows := shows_sent w a buf h
  by_cases hheard : Heard w a k buf
  · by_cases hbuf : buf = message
    · rw [if_pos hheard, if_pos ⟨hheard, hbuf⟩]
      simp [hshows.2 hbuf]
    · rw [if_pos hheard, if_neg (fun h => hbuf h.2)]
      simp [mt hshows.1 hbuf]
  · rw [if_neg hheard, if_neg (fun h => hheard h.1)]
    rfl

/-- The header of the message's packet goes out first, and its write is heard. -/
def HeaderHeard (w : Around) (s : OuchSession) (m : Outgoing) : Prop :=
  Heard w (auditing w s.log) s.socket (messageHeader m)

/-- The write of the message itself is heard. -/
def MessageHeard (w : Around) (s : OuchSession) (m : Outgoing) : Prop :=
  Heard w (run (onAudit w) (auditing w s.log) (told s.socket (messageHeader m)))
    (s.socket.drain (messageHeader m)).socket m.bytes

/-- The write of the message is heard. (A message may also be, byte for byte,
the header that is written before it.) -/
def SentOnce (w : Around) (s : OuchSession) (m : Outgoing) : Prop :=
  Xor (MessageHeard w s m) (HeaderHeard w s m ∧ messageHeader m = m.bytes)

theorem one_iff_xor {p q : Prop} [Decidable p] [Decidable q] :
    (if p then 1 else 0) + (if q then 1 else 0) = 1 ↔ Xor q p := by
  by_cases hp : p
  · by_cases hq : q <;> simp [hp, hq]
  · by_cases hq : q <;> simp [hp, hq]

theorem sentOnce_iff (w : Around) {s : OuchSession} {m : Outgoing} (hne : m.bytes ≠ [])
    (hok : (s.send m).1 = .ok ()) :
    (recordsSince w s (s.send m).2).countP (fun r => Shows r .sent m.bytes) = 1 ↔ SentOnce w s m := by
  obtain ⟨hactive, hnone⟩ := send_ok hok
  have htold : toldMessage s.socket m = told s.socket (messageHeader m) ++
      told (s.socket.drain (messageHeader m)).socket m.bytes := by
    rw [toldMessage, hnone]
  rw [recordsSince_calls w (calls_send m hactive), htold, accepted_append, List.countP_append, countP_told w _ _ _ hne,
    countP_told w _ _ _ hne, one_iff_xor]
  simp only [and_true]
  exact Iff.rfl

/-! ## Runs -/

/-- The operation handles no sequenced message, the write of a message that it
sends is heard, and all its calls make one line. -/
structure Clear (w : Around) (s : OuchSession) (op : Op) : Prop where
  received : ∀ t ∈ s.takes op, ∀ message, ¬ HoldsMessage t message
  sent : ∀ m, op = .send m → m.bytes ≠ [] → (s.exec op).1 = .ok () → SentOnce w s m
  lines : AllAlong (onAudit w) (OneLine w) (auditing w s.log) (s.audits op)

theorem identifies_iff (w : Around) (s : OuchSession) (op : Op) : Identifies w s op ↔
    (∀ t ∈ s.takes op, ∀ message, ¬ HoldsMessage t message) ∧
      ∀ m, op = .send m → m.bytes ≠ [] → (s.exec op).1 = .ok () → SentOnce w s m := by
  refine and_congr ?_ ?_
  · exact forall₂_congr fun t _ => identifiesRecv_iff w t
  · refine forall₂_congr ?_
    rintro m rfl
    exact forall₂_congr fun hne hok => sentOnce_iff w hne hok

theorem lines_run (w : Around) (s : OuchSession) (ops : List Op) :
    AllAlong step (fun s op => AllAlong (onAudit w) (OneLine w) (auditing w s.log) (s.audits op)) s ops ↔
      AllAlong (onAudit w) (OneLine w) (auditing w s.log) (s.auditsOf ops) := by
  induction ops generalizing s with
  | nil => exact Iff.rfl
  | cons op ops ih =>
    rw [allAlong_cons, auditsOf, allAlong_append, ih, auditing_calls w (calls_step s op)]

/-- The number of a sent record is that of the session. -/
theorem msgsSent_auditing (w : Around) (socket : TcpSocket) (clock : Clock) (login : LoginParams) (hbSendNs : UInt32)
    (ops : List Op) : (auditing w (run step (create socket clock login hbSendNs) ops).log).msgsSent =
      (run step (create socket clock login hbSendNs) ops).msgsSent := by
  have hrun : ∀ (cs : List AuditCall) (a : Auditing),
      (run (onAudit w) a cs).msgsSent = a.msgsSent + UInt64.ofNat (sentCalls cs) := by
    intro cs
    induction cs with
    | nil => exact fun a => (UInt64.add_zero _).symm
    | cons c cs ih =>
      intro a
      rw [run_cons, ih]
      cases c with
      | recv bytes seq => rfl
      | sent bytes =>
        have hcount : sentCalls (.sent bytes :: cs) = sentCalls cs + 1 := List.countP_cons_of_pos rfl
        rw [hcount, UInt64.ofNat_add, UInt64.add_comm (UInt64.ofNat _), ← UInt64.add_assoc]
        rfl
  have hcalls := calls_run (create socket clock login hbSendNs) ops
  rw [auditing_calls w hcalls, hrun, hcalls.msgsSent]
  rfl

/-- Each message of the run has its record, and the file tells of every record. -/
def Audited (w : Around) (s : OuchSession) (ops : List Op) : Prop :=
  AllAlong step (Identifies w) s ops ∧ (finish w (auditing w (run step s ops).log)).Tells

/-- The run is clear, and the worker writes all that it takes in the end. -/
def ClearRun (w : Around) (s : OuchSession) (ops : List Op) : Prop :=
  AllAlong step (Clear w) s ops ∧ WritesLast w (auditing w (run step s ops).log)

/-- Exactly the clear runs of a session are audited. -/
theorem audit_trail_iff (w : Around) (socket : TcpSocket) (clock : Clock) (login : LoginParams) (hbSendNs : UInt32)
    (ops : List Op) :
    Audited w (create socket clock login hbSendNs) ops ↔ ClearRun w (create socket clock login hbSendNs) ops := by
  generalize hs : create socket clock login hbSendNs = s
  have hlog : auditing w s.log = {} := by rw [← hs]; rfl
  have hclear : AllAlong step (Clear w) s ops ↔ AllAlong step (Identifies w) s ops ∧
      AllAlong (onAudit w) (OneLine w) {} (s.auditsOf ops) := by
    have hop : Clear w = fun s op => Identifies w s op ∧
        AllAlong (onAudit w) (OneLine w) (auditing w s.log) (s.audits op) := by
      funext s op
      rw [identifies_iff]
      exact propext ⟨fun h => ⟨⟨h.received, h.sent⟩, h.lines⟩, fun h => ⟨h.1.1, h.1.2, h.2⟩⟩
    rw [hop, allAlong_and, lines_run, hlog]
  rw [Audited, ClearRun, hclear, auditing_calls w (calls_run s ops), hlog, tells_iff AuditLog.sound_start, and_assoc]

/-- Surroundings in which the clock stands still and the worker sleeps. -/
def idle : Around := ⟨fun _ => 0, fun _ => []⟩

/-- A sequenced `OrderRejected`. -/
def rejection : Packet := ⟨Pkt.sequencedData, MsgType.orderRejected :: List.replicate 26 48, by decide⟩

/-- A session whose gateway accepts the login and then rejects an order. -/
def answered : OuchSession :=
  create { sends := [.accept 49]
           recvs := [.data acceptChunk, .again, .data ⟨rejection.encode, by decide, by decide⟩] }
    { reading := fun _ => 0 } { username := ascii "OUCH01", password := ascii "secret" } Soup.heartbeatSendNs

/-- The record of the rejection has its packet's first byte for its type. -/
theorem rejection_unidentified :
    let records := (auditing idle (run step answered [.beginLogin, .pollIo, .pollIo]).log).audit.recorded
    records.map (fun r => (r.dir, r.seq, r.type)) = [(.sent, 1, 0), (.recv, 0, 0), (.recv, 1, 0)] ∧
      records.map AuditRecord.hex = [hexDump (loginRequest answered.login).bytes, hexDump acceptChunk.bytes,
        hexDump ([0, 28, 83] ++ rejection.payload)] ∧
      ¬ Audited idle answered [.beginLogin, .pollIo, .pollIo] := by
  refine ⟨by decide, by decide, ?_⟩
  rintro ⟨hall, -⟩
  have hpoll : Identifies idle (run step answered [.beginLogin, .pollIo]) .pollIo := hall.2.2.1
  have hn : soup.next (run step answered [.beginLogin, .pollIo]).readSome.2.inBuffer = some (rejection.frame, []) := by
    decide
  have hrecv := hpoll.1 _ (mem_takes (by decide) hn)
  exact (identifiesRecv_iff _ _).1 hrecv rejection.payload ⟨_, _, hn, rfl, rfl, by decide⟩

end Auditing

end BistColo.App
