import BistColo.Ouch.Sides
import BistColo.StreamKit.Runs
/-!
# The calls of the audit handlers

`audits` lists the calls an operation makes: one for each packet that the parse
loop takes off the buffer (`takes`), and one for each buffer that a send loop
gets rid of whole (`told`). `calls_step` says that the log of the session has
exactly these. No send is taken to succeed here.
-/

open StreamKit

namespace BistColo.Ouch

open Soup

/-- A call of an audit handler; with a received packet, `next_inbound_seq()` meanwhile. -/
inductive AuditCall
  | sent (bytes : Bytes)
  | recv (bytes : Bytes) (seq : UInt64)
deriving DecidableEq

def AuditCall.bytes : AuditCall → Bytes
  | .sent bytes => bytes
  | .recv bytes _ => bytes

def auditCalls (log : List Event) : List AuditCall :=
  log.filterMap fun
    | .auditSent bytes => some (.sent bytes)
    | .auditRecv bytes _ seq => some (.recv bytes seq)
    | _ => none

@[simp] theorem auditCalls_append (l l' : List Event) : auditCalls (l ++ l') = auditCalls l ++ auditCalls l' := by
  simp [auditCalls]

/-- How many of the calls are for sent bytes. -/
def sentCalls (cs : List AuditCall) : Nat := cs.countP fun | .sent _ => true | .recv .. => false

namespace OuchSession

/-- From `s` to `s'` with the calls `cs`, of which `outbound_msgs_sent()` counts those for sent bytes. -/
structure Calls (s s' : OuchSession) (cs : List AuditCall) : Prop where
  log : auditCalls s'.log = auditCalls s.log ++ cs
  msgsSent : s'.msgsSent = s.msgsSent + UInt64.ofNat (sentCalls cs)

theorem Calls.trans {s s' s'' : OuchSession} {cs cs' : List AuditCall} (h : Calls s s' cs) (h' : Calls s' s'' cs') :
    Calls s s'' (cs ++ cs') := by
  constructor
  · rw [h'.log, h.log, List.append_assoc]
  · rw [h'.msgsSent, h.msgsSent, sentCalls, sentCalls, sentCalls, List.countP_append, UInt64.ofNat_add, UInt64.add_assoc]

/-- Nothing that is audited happens. -/
theorem Calls.quiet {s s' : OuchSession} {es : List Event} (hlog : s'.log = s.log ++ es) (hes : auditCalls es = [])
    (hsent : s'.msgsSent = s.msgsSent) : Calls s s' [] := by
  constructor
  · rw [hlog, auditCalls_append, hes]
  · rw [hsent]
    exact (UInt64.add_zero _).symm

theorem Calls.refl (s : OuchSession) : Calls s s [] := .quiet (List.append_nil _).symm rfl rfl

theorem calls_emit (s : OuchSession) {e : Event} (h : auditCalls [e] = []) : Calls s (s.emit e) [] := .quiet rfl h rfl

theorem calls_setState (s : OuchSession) (st : SessionState) (detail : String) : Calls s (s.setState st detail) [] :=
  .quiet rfl rfl rfl

theorem calls_withSocket (s : OuchSession) (k : TcpSocket) : Calls s (s.withSocket k) [] :=
  .quiet (List.append_nil _).symm rfl rfl

/-! ## Writing -/

/-- The call for a buffer, if the socket takes it whole. -/
def told (k : TcpSocket) (buf : Bytes) : List AuditCall := if (k.drain buf).left = [] then [.sent buf] else []

theorem calls_writeBytes (s : OuchSession) (buf : Bytes) : Calls s (s.writeBytes buf).2 (told s.socket buf) := by
  have hk := calls_withSocket s (s.socket.drain buf).socket
  unfold writeBytes told
  dsimp only
  split
  · rename_i e he
    rw [if_neg (s.socket.drain_error_left he)]
    exact hk
  · by_cases hleft : (s.socket.drain buf).left = []
    · rw [if_neg (not_not_intro hleft), if_pos hleft]
      refine hk.trans ⟨?_, rfl⟩
      rw [wrote, emit, auditCalls_append]
      rfl
    · rw [if_pos hleft, if_neg hleft]
      exact hk.trans (.quiet (List.append_nil _).symm rfl rfl)

theorem calls_request (s : OuchSession) (packet buf : Bytes) :
    Calls s ((s.emit (.request packet)).writeBytes buf).2 (told s.socket buf) :=
  (calls_emit s rfl).trans (calls_writeBytes _ buf)

/-- The header of the packet that `send_unsequenced` makes of a message. -/
def messageHeader (m : Outgoing) : Bytes := (makeHeader Pkt.unsequencedData (UInt16.ofNat m.bytes.length)).bytes

/-- The calls of `send_unsequenced`: for the header, and for the message if the
header met no error. -/
def toldMessage (k : TcpSocket) (m : Outgoing) : List AuditCall :=
  let d := k.drain (messageHeader m)
  told k (messageHeader m) ++ match d.error with
    | some _ => []
    | none => told d.socket m.bytes

theorem writeBytes_result (s : OuchSession) (buf : Bytes) : (s.writeBytes buf).2.socket = (s.socket.drain buf).socket ∧
    (s.writeBytes buf).1 = match (s.socket.drain buf).error with
      | some e => .error e
      | none => .ok () := by
  unfold writeBytes
  dsimp only
  cases (s.socket.drain buf).error with
  | some e => exact ⟨rfl, rfl⟩
  | none =>
    dsimp only
    split
    · exact ⟨rfl, rfl⟩
    · exact ⟨rfl, rfl⟩

theorem calls_send {s : OuchSession} (m : Outgoing) (hactive : s.state = .active) :
    Calls s (s.send m).2 (toldMessage s.socket m) := by
  rw [send_eq]
  unfold sendUnsequenced toldMessage
  rw [if_neg (not_not_intro hactive)]
  have hhead := calls_request s (messageHeader m ++ m.bytes) (messageHeader m)
  obtain ⟨hsock, hres⟩ := writeBytes_result (s.emit (.request (messageHeader m ++ m.bytes))) (messageHeader m)
  unfold messageHeader at hhead hsock hres ⊢
  dsimp only
  generalize (makeHeader Pkt.unsequencedData (UInt16.ofNat m.bytes.length)).bytes = hdr at hhead hsock hres ⊢
  change _ = (s.socket.drain hdr).socket at hsock
  change _ = (match (s.socket.drain hdr).error with
    | some e => Except.error e
    | none => Except.ok ()) at hres
  rcases hw : (s.emit (.request (hdr ++ m.bytes))).writeBytes hdr with ⟨r, s'⟩
  rw [hw] at hhead hsock hres
  dsimp only at hhead hsock hres
  cases hd : (s.socket.drain hdr).error with
  | some e =>
    rw [hd] at hres
    subst hres
    simpa using hhead
  | none =>
    rw [hd] at hres
    subst hres
    rw [← hsock]
    exact hhead.trans (calls_writeBytes s' m.bytes)

/-- A send that succeeds was made on an Active session, and its header met no error. -/
theorem send_ok {s : OuchSession} {m : Outgoing} (h : (s.send m).1 = .ok ()) :
    s.state = .active ∧ (s.socket.drain (messageHeader m)).error = none := by
  rw [send_eq] at h
  unfold sendUnsequenced at h
  split at h
  · cases h
  · rename_i hstate
    refine ⟨not_not.1 hstate, ?_⟩
    obtain ⟨-, hres⟩ := writeBytes_result (s.emit (.request (messageHeader m ++ m.bytes))) (messageHeader m)
    change _ = (match (s.socket.drain (messageHeader m)).error with
      | some e => Except.error e
      | none => Except.ok ()) at hres
    cases hd : (s.socket.drain (messageHeader m)).error with
    | none => rfl
    | some e =>
      rw [hd] at hres
      unfold messageHeader at hres
      dsimp only at h
      split at h
      · cases h
      · rename_i hw
        rw [hw] at hres
        cases hres

theorem calls_beginLogin (s : OuchSession) (hopen : s.socket.isOpen = true) :
    Calls s s.beginLogin.2 (told s.socket (loginRequest s.login).bytes) := by
  unfold beginLogin
  rw [if_neg (by simp [hopen])]
  exact (calls_setState s _ _).trans (calls_request _ _ _)

theorem calls_requestLogout (s : OuchSession) :
    Calls s s.requestLogout.2 (told s.socket (makeHeader Pkt.logoutRequest 0).bytes) :=
  (calls_setState s _ _).trans (calls_request _ _ _)

/-! ## Reading -/

theorem calls_readLoop (fuel : Nat) (s : OuchSession) : Calls s (s.readLoop fuel).2 [] := by
  refine readLoop_inv (I := fun s' => Calls s s' []) ?_ ?_ ?_ fuel (.refl s)
  · intro s' h
    exact h.trans (calls_withSocket s' _)
  · intro s' h
    exact h.trans (calls_setState s' _ _)
  · intro s' bytes h
    exact h.trans (.quiet (List.append_nil _).symm rfl rfl)

theorem calls_readSome (s : OuchSession) : Calls s s.readSome.2 [] := by
  unfold readSome
  split
  · exact .refl s
  · exact calls_readLoop _ s

/-- The audit handler has been called before the dispatch, and is not called by it. -/
theorem calls_dispatchPacket (s : OuchSession) (type : UInt8) (mem : Bytes) (payloadLen : UInt64) :
    Calls s (s.dispatchPacket type mem payloadLen).2 [] := by
  have h := dispatches_dispatchPacket s type mem payloadLen
  obtain ⟨es, hlog, hes⟩ := h.log
  refine .quiet hlog ?_ h.msgsSent
  rw [auditCalls, List.filterMap_eq_nil_iff]
  intro e he
  have hkind := hes e he
  cases e <;> first | rfl | cases hkind

/-- The call for the packet at the front of the buffer. -/
def packetCall (s : OuchSession) : AuditCall :=
  .recv (s.inBuffer.take (Header.read s.inBuffer).packetSize) s.nextInboundSeq

theorem calls_takePacket (s : OuchSession) : Calls s (s.takePacket (Header.read s.inBuffer)).2 [s.packetCall] := by
  have haudit : Calls s (s.announce (Header.read s.inBuffer)) [s.packetCall] := by
    constructor
    · rw [announce, emit, emit, auditCalls_append, auditCalls_append, List.append_assoc]
      rfl
    · exact (UInt64.add_zero _).symm
  have hdispatch := calls_dispatchPacket (s.announce (Header.read s.inBuffer)) (Header.read s.inBuffer).packetType
    (s.inBuffer.drop headerLen) (Header.read s.inBuffer).payloadLen
  have herase : ∀ (s' : OuchSession) n, Calls s' (s'.erase n) [] := fun s' n => .quiet (List.append_nil _).symm rfl rfl
  exact (haudit.trans hdispatch).trans (herase _ _)

/-- The sessions on which the parse loop takes a packet. -/
def takesLoop : Nat → OuchSession → List OuchSession
  | 0, _ => []
  | fuel + 1, s =>
    if s.inBuffer.length < headerLen then []
    else
      let h := Header.read s.inBuffer
      if s.inBuffer.length < h.packetSize then []
      else s :: match s.takePacket h with
        | (.error _, _) => []
        | (.ok (), s) => takesLoop fuel s

theorem calls_parseLoop (fuel : Nat) (s : OuchSession) :
    Calls s (s.parseLoop fuel).2 ((s.takesLoop fuel).map packetCall) := by
  induction fuel generalizing s with
  | zero => exact .refl s
  | succ fuel ih =>
    rw [parseLoop, takesLoop]
    split
    · exact .refl s
    · dsimp only
      split
      · exact .refl s
      · have ht := calls_takePacket s
        rcases he : s.takePacket (Header.read s.inBuffer) with ⟨e | ⟨⟩, s'⟩
        · rw [he] at ht
          exact ht
        · rw [he] at ht
          exact ht.trans (ih s')

/-! ## Timers and polls -/

theorem calls_watchdog (s : OuchSession) (now : UInt64) : Calls s (s.watchdog now).2 [] := by
  unfold watchdog
  split
  · exact calls_setState _ _ _
  · exact .refl s

/-- The call of a tick that sends a heartbeat. -/
def toldHeartbeat (s : OuchSession) : List AuditCall :=
  let s := s.flushPending
  if s.state = .active ∧ s.heartbeatSendNs.toUInt64 ≤ s.now - s.lastSendNs then
    told s.socket (makeHeader Pkt.clientHeartbeat 0).bytes
  else []

theorem calls_tickTimers (s : OuchSession) : Calls s s.tickTimers.2 s.toldHeartbeat := by
  have hflush : Calls s s.flushPending [] := .quiet (List.append_nil _).symm rfl rfl
  have htick : Calls s.flushPending s.flushPending.tick [] := .quiet (List.append_nil _).symm rfl rfl
  unfold tickTimers toldHeartbeat
  dsimp only
  by_cases hactive : s.flushPending.state = .active
  · rw [if_neg (not_not_intro hactive)]
    have hh : Calls s.flushPending.tick (s.flushPending.tick.sendHeartbeat s.flushPending.now).2
        (if s.flushPending.state = .active ∧
            s.flushPending.heartbeatSendNs.toUInt64 ≤ s.flushPending.now - s.flushPending.lastSendNs then
          told s.flushPending.socket (makeHeader Pkt.clientHeartbeat 0).bytes else []) := by
      unfold sendHeartbeat
      by_cases hdue : s.flushPending.heartbeatSendNs.toUInt64 ≤ s.flushPending.now - s.flushPending.lastSendNs
      · rw [if_pos (by exact hdue), if_pos ⟨hactive, hdue⟩]
        exact calls_request _ _ _
      · rw [if_neg (by exact hdue), if_neg (fun h => hdue h.2)]
        exact .refl _
    have hrest := (hflush.trans htick).trans hh
    split
    · rename_i he
      rwa [he] at hrest
    · rename_i he
      rw [he] at hrest
      simpa using hrest.trans (calls_watchdog _ _)
  · rw [if_pos hactive, if_neg (by simp [hactive])]
    exact hflush

/-! ## Operations -/

/-- The sessions on which the operation takes a packet off the buffer. -/
def takes (s : OuchSession) : Op → List OuchSession
  | .pollIo =>
    match s.readSome with
    | (.error _, _) => []
    | (.ok (), s) => s.takesLoop s.inBuffer.length
  | .beginLogin | .send _ | .requestLogout => []

/-- A poll takes the packet that is complete when it has read. -/
theorem mem_takes {s : OuchSession} {f : Frame} {rest : Bytes} (hr : s.readSome.1 = .ok ())
    (hn : soup.next s.readSome.2.inBuffer = some (f, rest)) : s.readSome.2 ∈ s.takes .pollIo := by
  obtain ⟨h3, hsize, -, -⟩ := Frame.next_eq_some.1 hn
  unfold takes
  rcases he : s.readSome with ⟨r, s'⟩
  rw [he] at hr h3 hsize
  dsimp only at hr h3 hsize
  rw [hr]
  dsimp only
  cases hl : s'.inBuffer.length with
  | zero =>
    rw [hl] at h3
    exact absurd h3 (by decide)
  | succ n =>
    rw [takesLoop, if_neg (Nat.not_lt.2 h3)]
    dsimp only
    rw [if_neg (Nat.not_lt.2 hsize)]
    exact List.mem_cons_self

/-- The calls for sent bytes. -/
def tells (s : OuchSession) : Op → List AuditCall
  | .beginLogin => if s.socket.isOpen = false then [] else told s.socket (loginRequest s.login).bytes
  | .send m => if s.state ≠ .active then [] else toldMessage s.socket m
  | .requestLogout => told s.socket (makeHeader Pkt.logoutRequest 0).bytes
  | .pollIo =>
    match s.readSome with
    | (.error _, _) => []
    | (.ok (), s) =>
      match s.parsePending with
      | (.error _, _) => []
      | (.ok (), s) => s.toldHeartbeat

/-- All calls of an operation. -/
def audits (s : OuchSession) (op : Op) : List AuditCall := (s.takes op).map packetCall ++ s.tells op

theorem calls_pollIo (s : OuchSession) : Calls s s.pollIo.2 (s.audits .pollIo) := by
  have hr := calls_readSome s
  unfold pollIo audits takes tells
  rcases he : s.readSome with ⟨e | ⟨⟩, s1⟩
  · rw [he] at hr
    exact hr
  · rw [he] at hr
    have hp := calls_parseLoop s1.inBuffer.length s1
    dsimp only
    rcases hpe : s1.parsePending with ⟨e | ⟨⟩, s2⟩
    · rw [parsePending] at hpe
      rw [hpe] at hp
      simpa using hr.trans hp
    · rw [parsePending] at hpe
      rw [hpe] at hp
      exact (hr.trans hp).trans (calls_tickTimers s2)

/-- The log of an operation has its calls, in order, and no others. -/
theorem calls_step (s : OuchSession) (op : Op) : Calls s (s.step op) (s.audits op) := by
  cases op with
  | pollIo => exact calls_pollIo s
  | requestLogout => exact calls_requestLogout s
  | beginLogin =>
    rw [audits, takes, tells, List.map_nil, List.nil_append]
    split
    · rename_i hclosed
      rw [step, exec, beginLogin, if_pos hclosed]
      exact .refl s
    · rename_i hopen
      exact calls_beginLogin s (by simpa using hopen)
  | send m =>
    rw [audits, takes, tells, List.map_nil, List.nil_append]
    split
    · rename_i hstate
      rw [step, exec, send_eq, sendUnsequenced, if_pos hstate]
      exact .refl s
    · rename_i hstate
      exact calls_send m (not_not.1 hstate)

/-- The calls of a run. -/
def auditsOf : OuchSession → List Op → List AuditCall
  | _, [] => []
  | s, op :: ops => s.audits op ++ auditsOf (s.step op) ops

theorem calls_run (s : OuchSession) (ops : List Op) : Calls s (run step s ops) (s.auditsOf ops) := by
  induction ops generalizing s with
  | nil => exact .refl s
  | cons op ops ih => exact (calls_step s op).trans (ih (s.step op))

end OuchSession

end BistColo.Ouch
