import BistColo.Net.TcpSocket
import BistColo.Net.SoupBinTcp
import BistColo.Ouch.Messages
/-!
# The OUCH session

`ouch/session.hpp`, function by function. A method returns its result and the
session after it. All handlers are taken to be set, and a session keeps a
`log` of what it did: the handler calls with what they were given, and the
calls of the private functions that the theorems speak of. Nothing in the code
reads the log back.
-/

open StreamKit

namespace BistColo.Ouch

open Soup

inductive SessionState
  | disconnected | connecting | loggingIn | active | disconnecting | failed
deriving DecidableEq

structure LoginParams where
  username : Bytes
  password : Bytes
  requestedSession : Bytes := []
  requestedSequence : UInt64 := 0
deriving DecidableEq

/-- An entry of the log. -/
inductive Event
  /-- `on_state_change` -/
  | stateChange (st : SessionState) (detail : String)
  /-- `on_audit_sent` -/
  | auditSent (bytes : Bytes)
  /-- `on_audit_recv`, with what `session_id()` and `next_inbound_seq()` return meanwhile -/
  | auditRecv (bytes : Bytes) (session : Bytes) (seq : UInt64)
  /-- the handler of a server message, with the struct it is given -/
  | message (m : ServerMsg) (bytes : Bytes)
  /-- a packet the session was asked to write -/
  | request (packet : Bytes)
  /-- a call of `dispatch_packet`, with the bytes of its payload argument it reads -/
  | dispatch (f : Frame) (payloadLen : UInt64) (reads : List (Nat × Nat))
  /-- a processed LoginAccepted -/
  | login (session : Bytes) (seq : UInt64)
  /-- a call of `dispatch_ouch` for the sequenced packet of number `seq` -/
  | ouch (session : Bytes) (seq : UInt64)
deriving DecidableEq

structure OuchSession where
  socket : TcpSocket
  clock : Clock
  login : LoginParams
  heartbeatSendNs : UInt32 := Soup.heartbeatSendNs
  heartbeatTimeoutNs : UInt32 := Soup.heartbeatTimeoutNs
  state : SessionState := .disconnected
  inBuffer : Bytes := []
  outPending : Bytes := []
  lastSendNs : UInt64 := 0
  lastRecvNs : UInt64 := 0
  assignedSession : Bytes := []
  nextInboundSeq : UInt64 := 0
  lastLoginRejectReason : UInt8 := 0
  msgsSent : UInt64 := 0
  msgsRecv : UInt64 := 0
  log : List Event := []

namespace OuchSession

def emit (s : OuchSession) (e : Event) : OuchSession := { s with log := s.log ++ [e] }

def withSocket (s : OuchSession) (k : TcpSocket) : OuchSession := { s with socket := k }

/-- `monotonic_ns()`, read from the session's clock. -/
def now (s : OuchSession) : UInt64 := s.clock.monotonicNs.1

def tick (s : OuchSession) : OuchSession := { s with clock := s.clock.monotonicNs.2 }

def setState (s : OuchSession) (st : SessionState) (detail : String) : OuchSession :=
  { s with state := st }.emit (.stateChange st detail)

/-! ## Writing -/

def stash (s : OuchSession) (bytes : Bytes) : OuchSession := { s with outPending := s.outPending ++ bytes }

/-- The bookkeeping after a buffer went out whole. -/
def wrote (s : OuchSession) (buf : Bytes) : OuchSession :=
  { s.tick with lastSendNs := s.now, msgsSent := s.msgsSent + 1 }.emit (.auditSent buf)

/-- Sends what the socket takes and stashes the rest behind what is stashed already. -/
def writeBytes (s : OuchSession) (buf : Bytes) : Result Unit × OuchSession :=
  let d := s.socket.drain buf
  let s := s.withSocket d.socket
  match d.error with
  | some e => (.error e, s)
  | none => if d.left ≠ [] then (.ok (), s.stash d.left) else (.ok (), s.wrote buf)

/-- Header and payload are two writes. -/
def sendUnsequenced (s : OuchSession) (payload : Bytes) : Result Unit × OuchSession :=
  if s.state ≠ .active then (.error (makeError .stateMismatch "session not Active"), s)
  else
    let h := (makeHeader Pkt.unsequencedData (UInt16.ofNat payload.length)).bytes
    match (s.emit (.request (h ++ payload))).writeBytes h with
    | (.error e, s) => (.error e, s)
    | (.ok (), s) => s.writeBytes payload

def sendEnterOrder (s : OuchSession) (m : EnterOrder) := s.sendUnsequenced m.bytes
def sendReplaceOrder (s : OuchSession) (m : ReplaceOrder) := s.sendUnsequenced m.bytes
def sendCancel (s : OuchSession) (m : CancelOrder) := s.sendUnsequenced m.bytes
def sendCancelById (s : OuchSession) (m : CancelByOrderId) := s.sendUnsequenced m.bytes
def sendMassQuote (s : OuchSession) (blob : Bytes) := s.sendUnsequenced blob

/-- The sequence number is printed into a buffer as wide as the field, so its
last byte is the NUL and the last digit is lost. -/
def loginSequence (seq : UInt64) : Field 20 where
  bytes := snprintf (List.replicate 20 0) (padded 20 seq)
  size := length_snprintf _ (by decide)

def loginRequest (lp : LoginParams) : LoginRequest where
  header := makeHeader Pkt.loginRequest (49 - 3)
  username := Field.pad 32 6 lp.username
  password := Field.pad 32 10 lp.password
  requestedSession := Field.pad 32 10 lp.requestedSession
  requestedSequenceNumber := loginSequence lp.requestedSequence

def beginLogin (s : OuchSession) : Result Unit × OuchSession :=
  if s.socket.isOpen = false then (.error (makeError .io "socket not connected"), s)
  else
    let s := s.setState .loggingIn "sending LoginRequest"
    let req := (loginRequest s.login).bytes
    (s.emit (.request req)).writeBytes req

def requestLogout (s : OuchSession) : Result Unit × OuchSession :=
  let s := s.setState .disconnecting "sending LogoutRequest"
  let req := (makeHeader Pkt.logoutRequest 0).bytes
  (s.emit (.request req)).writeBytes req

/-! ## Reading -/

def append (s : OuchSession) (bytes : Bytes) : OuchSession :=
  { s.tick with inBuffer := s.inBuffer ++ bytes, lastRecvNs := s.now }

/-- The read loop; each turn uses up an answer of the socket. -/
def readLoop : Nat → OuchSession → Result Unit × OuchSession
  | 0, s => (.ok (), s)
  | fuel + 1, s =>
    match s.socket.recv with
    | (.error e, k) =>
      if e.category = .io ∧ e.detail = "eof" then (.error e, (s.withSocket k).setState .disconnected "peer closed")
      else (.error e, s.withSocket k)
    | (.ok bytes, k) => if bytes = [] then (.ok (), s.withSocket k) else readLoop fuel ((s.withSocket k).append bytes)

def readSome (s : OuchSession) : Result Unit × OuchSession :=
  if s.socket.isOpen = false then (.error (makeError .io "read on closed socket"), s)
  else readLoop (s.socket.recvs.length + 1) s

/-- The payload is the bytes from `mem` on, of which `payloadLen` belong to the packet. -/
def dispatchOuch (s : OuchSession) (mem : Bytes) (payloadLen : UInt64) : Result Unit × OuchSession :=
  if payloadLen = 0 then (.error (makeError .protocol "empty OUCH payload"), s)
  else
    let type := peek mem 0 1
    match type.head?.bind ServerMsg.ofType with
    | none => (.error (makeError .protocol ("unknown OUCH type: " ++ text type)), s)
    | some m =>
      if payloadLen ≠ UInt64.ofNat m.size then
        (.error (makeError .protocol ("OUCH " ++ text type ++ " size mismatch")), s)
      else (.ok (), s.emit (.message m (peek mem 0 m.size)))

def countRecv (s : OuchSession) : OuchSession := { s with msgsRecv := s.msgsRecv + 1 }

def acceptLogin (s : OuchSession) (session : Bytes) (seq : UInt64) : OuchSession :=
  ({ s with assignedSession := session, nextInboundSeq := seq, lastLoginRejectReason := 0 }.emit
    (.login session seq)).setState .active "LoginAccepted"

def rejectLogin (s : OuchSession) (reason : UInt8) (detail : String) : OuchSession :=
  { s with lastLoginRejectReason := reason }.setState .failed detail

/-- Counts a sequenced packet before it is decoded. -/
def countSequenced (s : OuchSession) : OuchSession :=
  { s with nextInboundSeq := s.nextInboundSeq + 1 }.emit (.ouch s.assignedSession s.nextInboundSeq)

def dispatchPacket (s : OuchSession) (type : UInt8) (mem : Bytes) (payloadLen : UInt64) :
    Result Unit × OuchSession :=
  let s := s.countRecv
  if type = Pkt.loginAccepted then
    if payloadLen < UInt64.ofNat (sessionLen + sequenceLen) then
      (.error (makeError .protocol "short LoginAccepted"), s)
    else (.ok (), s.acceptLogin (peek mem 0 sessionLen) (strtoull (peek mem sessionLen sequenceLen ++ [0])))
  else if type = Pkt.loginRejected then
    if 1 ≤ payloadLen then
      let reason := peek mem 0 1
      (.ok (), s.rejectLogin (reason.headD 0) ("LoginRejected" ++ "(reason='" ++ text reason ++ "')"))
    else (.ok (), s.rejectLogin 0 "LoginRejected")
  else if type = Pkt.serverHeartbeat then (.ok (), s)
  else if type = Pkt.endOfSession then (.ok (), s.setState .disconnected "EndOfSession")
  else if type = Pkt.sequencedData then s.countSequenced.dispatchOuch mem payloadLen
  else if type = Pkt.debug then (.ok (), s)
  else (.error (makeError .protocol ("unknown SoupBinTCP type: " ++ text [type])), s)

/-- The ranges (offset and length) of the payload that `dispatch_packet` and
`dispatch_ouch` read; `dispatchPacket_congr` says that there are no others. -/
def dispatchReads (type : UInt8) (mem : Bytes) (payloadLen : UInt64) : List (Nat × Nat) :=
  if type = Pkt.loginAccepted then
    if payloadLen < UInt64.ofNat (sessionLen + sequenceLen) then [] else [(0, sessionLen), (sessionLen, sequenceLen)]
  else if type = Pkt.loginRejected then if 1 ≤ payloadLen then [(0, 1)] else []
  else if type = Pkt.sequencedData then
    if payloadLen = 0 then []
    else (0, 1) :: match (peek mem 0 1).head?.bind ServerMsg.ofType with
      | none => []
      | some m => if payloadLen ≠ UInt64.ofNat m.size then [] else [(0, m.size)]
  else []

def erase (s : OuchSession) (n : Nat) : OuchSession := { s with inBuffer := s.inBuffer.drop n }

/-- The audit callback for the packet with header `h` in front, and the call
of `dispatch_packet` with it. -/
def announce (s : OuchSession) (h : Header) : OuchSession :=
  let packet := s.inBuffer.take h.packetSize
  let payload := s.inBuffer.drop headerLen
  (s.emit (.auditRecv packet s.assignedSession s.nextInboundSeq)).emit
    (.dispatch ⟨h.length, h.packetType, packet.drop headerLen⟩ h.payloadLen
      (dispatchReads h.packetType payload h.payloadLen))

/-- The body of the parse loop, for the complete packet with header `h` in front. -/
def takePacket (s : OuchSession) (h : Header) : Result Unit × OuchSession :=
  let payload := s.inBuffer.drop headerLen
  let d := (s.announce h).dispatchPacket h.packetType payload h.payloadLen
  (d.1, d.2.erase h.packetSize)

/-- The parse loop; each turn takes at least two bytes off the buffer. -/
def parseLoop : Nat → OuchSession → Result Unit × OuchSession
  | 0, s => (.ok (), s)
  | fuel + 1, s =>
    if s.inBuffer.length < headerLen then (.ok (), s)
    else
      let h := Header.read s.inBuffer
      if s.inBuffer.length < h.packetSize then (.ok (), s)
      else
        match s.takePacket h with
        | (.error e, s) => (.error e, s)
        | (.ok (), s) => parseLoop fuel s

def parsePending (s : OuchSession) : Result Unit × OuchSession := parseLoop s.inBuffer.length s

/-! ## Timers -/

def flushPending (s : OuchSession) : OuchSession :=
  let d := s.socket.drain s.outPending
  { s.withSocket d.socket with outPending := d.left }

/-- Sends a heartbeat if `now` is long enough after the last send. -/
def sendHeartbeat (s : OuchSession) (now : UInt64) : Result Unit × OuchSession :=
  if s.heartbeatSendNs.toUInt64 ≤ now - s.lastSendNs then
    let hb := (makeHeader Pkt.clientHeartbeat 0).bytes
    (s.emit (.request hb)).writeBytes hb
  else (.ok (), s)

def watchdog (s : OuchSession) (now : UInt64) : Result Unit × OuchSession :=
  if s.lastRecvNs ≠ 0 ∧ s.heartbeatTimeoutNs.toUInt64 ≤ now - s.lastRecvNs then
    (.error (makeError .timeout "heartbeat watchdog tripped"), s.setState .failed "peer heartbeat timeout")
  else (.ok (), s)

def tickTimers (s : OuchSession) : Result Unit × OuchSession :=
  let s := s.flushPending
  if s.state ≠ .active then (.ok (), s)
  else
    let t := s.now
    match s.tick.sendHeartbeat t with
    | (.error e, s) => (.error e, s)
    | (.ok (), s) => s.watchdog t

def pollIo (s : OuchSession) : Result Unit × OuchSession :=
  match s.readSome with
  | (.error e, s) => (.error e, s)
  | (.ok (), s) =>
    match s.parsePending with
    | (.error e, s) => (.error e, s)
    | (.ok (), s) => s.tickTimers

/-! ## Operations -/

/-- A message handed to one of the `send_*` functions. -/
inductive Outgoing
  | enterOrder (m : EnterOrder)
  | replaceOrder (m : ReplaceOrder)
  | cancel (m : CancelOrder)
  | cancelById (m : CancelByOrderId)
  | massQuote (blob : Bytes)
deriving DecidableEq

def send (s : OuchSession) : Outgoing → Result Unit × OuchSession
  | .enterOrder m => s.sendEnterOrder m
  | .replaceOrder m => s.sendReplaceOrder m
  | .cancel m => s.sendCancel m
  | .cancelById m => s.sendCancelById m
  | .massQuote blob => s.sendMassQuote blob

def Outgoing.bytes : Outgoing → Bytes
  | .enterOrder m => m.bytes
  | .replaceOrder m => m.bytes
  | .cancel m => m.bytes
  | .cancelById m => m.bytes
  | .massQuote blob => blob

/-- Every `send_*` function is `send_unsequenced` of the message's bytes. -/
theorem send_eq (s : OuchSession) (m : Outgoing) : s.send m = s.sendUnsequenced m.bytes := by
  cases m <;> rfl

/-- The public operations of a session. -/
inductive Op
  | beginLogin
  | send (m : Outgoing)
  | requestLogout
  | pollIo
deriving DecidableEq

def exec (s : OuchSession) : Op → Result Unit × OuchSession
  | .beginLogin => s.beginLogin
  | .send m => s.send m
  | .requestLogout => s.requestLogout
  | .pollIo => s.pollIo

def step (s : OuchSession) (op : Op) : OuchSession := (s.exec op).2

/-- A session as the constructor leaves it, on a socket nothing went through yet. -/
structure Fresh (s : OuchSession) : Prop where
  inBuffer : s.inBuffer = []
  outPending : s.outPending = []
  log : s.log = []
  wire : s.socket.wire = []
  received : s.socket.received = []
  state : s.state = .disconnected
  assignedSession : s.assignedSession = []
  nextInboundSeq : s.nextInboundSeq = 0

/-- What the constructor builds. -/
def create (socket : TcpSocket) (clock : Clock) (login : LoginParams) (heartbeatSendNs : UInt32) : OuchSession :=
  { socket, clock, login, heartbeatSendNs }

end OuchSession

end BistColo.Ouch
